import LandRecords.Backend.Database

/-! Roles, permissions and identities. What a role may do is read from one table, in which
no role inherits from another. -/
namespace LandRecords.Api

open Backend Audit

inductive Role
  | operator | verifier | supervisor | auditor | administrator
deriving DecidableEq

inductive Permission
  | documentIngest | reviewClaim | reviewSubmit | reviewConfirm
  | conflictRead | conflictAssign | conflictTransition
  | recordReadMasked | recordReadUnmasked | recordPublish
  | provenanceRead | chainVerify | configWrite | dashboardRead | trainingStoreRead
deriving DecidableEq

def Permission.value : Permission → Text
  | .documentIngest => "document.ingest".toList
  | .reviewClaim => "review.claim".toList
  | .reviewSubmit => "review.submit".toList
  | .reviewConfirm => "review.confirm".toList
  | .conflictRead => "conflict.read".toList
  | .conflictAssign => "conflict.assign".toList
  | .conflictTransition => "conflict.transition".toList
  | .recordReadMasked => "record.read.masked".toList
  | .recordReadUnmasked => "record.read.unmasked".toList
  | .recordPublish => "record.publish".toList
  | .provenanceRead => "provenance.read".toList
  | .chainVerify => "chain.verify".toList
  | .configWrite => "config.write".toList
  | .dashboardRead => "dashboard.read".toList
  | .trainingStoreRead => "training_store.read".toList

def permissionMatrix : Role → List Permission
  | .operator => [.documentIngest, .reviewClaim, .reviewSubmit, .recordReadMasked]
  | .verifier => [.reviewClaim, .reviewSubmit, .reviewConfirm, .conflictRead, .recordReadMasked,
      .provenanceRead]
  | .supervisor => [.reviewConfirm, .conflictRead, .conflictAssign, .conflictTransition,
      .recordReadMasked, .recordPublish, .provenanceRead, .dashboardRead]
  | .auditor => [.conflictRead, .recordReadMasked, .provenanceRead, .recordReadUnmasked,
      .chainVerify, .dashboardRead]
  | .administrator => [.documentIngest, .configWrite, .trainingStoreRead, .recordReadMasked,
      .dashboardRead]

def hasPermission (role : Role) (permission : Permission) : Bool :=
  permission ∈ permissionMatrix role

structure Identity where
  actor : Text
  roles : List Role

def Identity.has (identity : Identity) (permission : Permission) : Bool :=
  identity.roles.any fun role => hasPermission role permission

/-- An identity provider resolves a credential, or raises `UnknownIdentity`. -/
structure IdentityProvider where
  resolve : Text → Option Identity

def mockIdentityProvider (roster : List (Text × List Role)) : IdentityProvider where
  resolve credential :=
    (roster.find? fun entry => entry.1 = credential).map fun entry => ⟨credential, entry.2⟩

def defaultMockIdentityProvider : IdentityProvider :=
  mockIdentityProvider [("operator1".toList, [.operator]), ("verifier1".toList, [.verifier]),
    ("supervisor1".toList, [.supervisor]), ("auditor1".toList, [.auditor]),
    ("admin1".toList, [.administrator])]

/-- The arguments that `record_permission_check` appends with. -/
def recordPermissionCheck (actor : Text) (permission : Permission) (allowed : Bool) :
    AppendArgs where
  actor := actor
  action := if allowed then "rbac.checked".toList else "rbac.denied".toList
  subject := some permission.value
  shardKey := some systemShardKey

theorem Identity.has_iff {identity : Identity} {permission : Permission} :
    identity.has permission = true ↔
      ∃ role ∈ identity.roles, permission ∈ permissionMatrix role := by
  simp [Identity.has, hasPermission]

theorem Identity.has_iff_mem {identity : Identity} {permission : Permission} {only : Role}
    (honly : ∀ role, permission ∈ permissionMatrix role ↔ role = only) :
    identity.has permission = true ↔ only ∈ identity.roles := by
  rw [Identity.has_iff]
  simp only [honly, exists_eq_right]

theorem Identity.has_recordReadUnmasked {identity : Identity} :
    identity.has .recordReadUnmasked = true ↔ .auditor ∈ identity.roles := by
  apply Identity.has_iff_mem
  intro role
  cases role <;> decide

theorem Identity.has_recordPublish {identity : Identity} :
    identity.has .recordPublish = true ↔ .supervisor ∈ identity.roles := by
  apply Identity.has_iff_mem
  intro role
  cases role <;> decide

theorem Identity.has_conflictAssign {identity : Identity} :
    identity.has .conflictAssign = true ↔ .supervisor ∈ identity.roles := by
  apply Identity.has_iff_mem
  intro role
  cases role <;> decide

theorem Identity.has_conflictTransition {identity : Identity} :
    identity.has .conflictTransition = true ↔ .supervisor ∈ identity.roles := by
  apply Identity.has_iff_mem
  intro role
  cases role <;> decide

end LandRecords.Api
