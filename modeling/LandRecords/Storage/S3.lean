import LandRecords.Base.Clients
import LandRecords.Storage.Immutable

/-! The object store on an S3-compatible service. The service is given by its documented
behaviour: a read sees every finished write, and a write replaces the object. Between the look at
a key and the write of its object other clients may be at work; the service has no conditional
write, and the driver repeats a request whose answer is lost. -/
namespace LandRecords.Storage

open Clients
open Ingest (Content digestOf keyFor)
open Review (lastSegment)

abbrev Bucket := Text → Option Content

inductive S3Request
  | getObject (key : Text)
  | putObject (key : Text) (body : Content)
  /-- An upload in parts, which is visible when its last request is served. -/
  | uploadFileobj (body : Content) (key : Text)

/-- A read answers the body, or `NoSuchKey`. -/
def S3Answer : S3Request → Type
  | .getObject _ => Option Content
  | .putObject _ _ | .uploadFileobj _ _ => Unit

def S3Request.serve : (request : S3Request) → Bucket → S3Answer request × Bucket
  | .getObject key, bucket => (bucket key, bucket)
  | .putObject key body, bucket => ((), Function.update bucket key (some body))
  | .uploadFileobj body key, bucket => ((), Function.update bucket key (some body))

/-- A service, by what it answers to a request and what becomes of its state. -/
structure S3Service (S : Type) where
  serve : (request : S3Request) → S → S3Answer request × S

variable {S : Type}

/-- The service does as it is documented, on the bucket that is seen of its state. -/
structure S3Service.Follows (service : S3Service S) (view : S → Bucket) : Prop where
  getObject : ∀ key s, (service.serve (.getObject key) s).1 = view s key ∧
    view (service.serve (.getObject key) s).2 = view s
  putObject : ∀ key body s,
    view (service.serve (.putObject key body) s).2 = Function.update (view s) key (some body)
  uploadFileobj : ∀ body key s,
    view (service.serve (.uploadFileobj body key) s).2 = Function.update (view s) key (some body)

theorem S3Service.Follows.servesAs {service : S3Service S} {view : S → Bucket}
    (h : service.Follows view) : ServesAs view service.serve S3Request.serve := by
  intro request s
  cases request with
  | getObject key =>
    rw [(h.getObject key s).2, (h.getObject key s).1]
    rfl
  | putObject key body =>
    rw [h.putObject]
    rfl
  | uploadFileobj body key =>
    rw [h.uploadFileobj]
    rfl

abbrev Failure := Option Text

def Failure.interruption : Failure → Interruption
  | some description => .raises (.failure description)
  | none => .crashes

abbrev S3Program := Program S3Request S3Answer StoreError

namespace S3ObjectStore

/-- `_exists_and_get`. -/
def existsAndGet (key : Text) : S3Program (Option Content) :=
  Program.request (S3Request.getObject key)

def put (data : Content) : S3Program PutResult := do
  let digest := digestOf data
  let key := keyFor digest
  match ← existsAndGet key with
  | some existing =>
      if existing ≠ data then .raise (.alreadyExistsWithDifferentContent key)
      else return ⟨key, digest, false⟩
  | none =>
      let _ ← Program.request (S3Request.putObject key data)
      return ⟨key, digest, true⟩

def get (key : Text) : S3Program Content := do
  match ← existsAndGet key with
  | none => .raise (.keyError key)
  | some data => return data

def objectExists (key : Text) : S3Program Bool := do
  return (← existsAndGet key).isSome

def verifyFixity (key : Text) : S3Program Bool := do
  let data ← get key
  return decide (digestOf data = lastSegment key)

def openStream (key : Text) : S3Program FileObject := do
  let response : Option Content ← Program.request (S3Request.getObject key)
  match response with
  | none => .raise (.keyError key)
  | some body => return FileObject.opened body

def writeNewObject (key : Text) (fileobj : FileObject) : S3Program Unit := do
  let _ ← Program.request (S3Request.uploadFileobj fileobj.rest key)
  return ()

def streamedContentMatches (key : Text) (spooled : FileObject) : S3Program Bool := do
  let existing ← openStream key
  return FileObject.sameRest 1048576 existing spooled.rewind

def receive (stream : UploadStream) (chunkSize : ℕ+) (fault : Option (ℕ × Failure)) :
    S3Program (Text × FileObject) :=
  .ended (hashStreamToSpooledTempfile stream chunkSize
    { names := [], receive := fault.map fun fault => (fault.1, fault.2.interruption) } fun _ => none).1

def putStream (stream : UploadStream) (chunkSize : ℕ+) (fault : Option (ℕ × Failure)) :
    S3Program PutResult := do
  let (digest, spooled) ← receive stream chunkSize fault
  let key := keyFor digest
  if ← objectExists key then
    if ← streamedContentMatches key spooled then return ⟨key, digest, false⟩
    else .raise (.alreadyExistsWithDifferentContent key)
  else
    writeNewObject key spooled.rewind
    return ⟨key, digest, true⟩

end S3ObjectStore

inductive S3Call
  | put (data : Content)
  | putStream (stream : UploadStream) (chunkSize : ℕ+) (fault : Option (ℕ × Failure))
  | get (key : Text)
  | objectExists (key : Text)
  | verifyFixity (key : Text)

inductive S3Reply
  | put (result : PutResult)
  | content (data : Content)
  | flag (answer : Bool)
deriving DecidableEq

def S3Call.program : S3Call → S3Program S3Reply
  | .put data => do return .put (← S3ObjectStore.put data)
  | .putStream stream chunkSize fault => do
      return .put (← S3ObjectStore.putStream stream chunkSize fault)
  | .get key => do return .content (← S3ObjectStore.get key)
  | .objectExists key => do return .flag (← S3ObjectStore.objectExists key)
  | .verifyFixity key => do return .flag (← S3ObjectStore.verifyFixity key)

def S3Call.contents : S3Call → List Content
  | .put data => [data]
  | .putStream stream _ _ => [stream.content]
  | .get _ | .objectExists _ | .verifyFixity _ => []

/-- Clients of one bucket. A request that keeps failing raises a `ClientError`. -/
def s3Clients (service : S3Service S) :
    System S S3Call S3Request S3Answer StoreError S3Reply Failure where
  serve := service.serve
  program := S3Call.program
  givenUp
    | some description => .raised (.failure description)
    | none => .crashed

def bucketClients : System Bucket S3Call S3Request S3Answer StoreError S3Reply Failure :=
  s3Clients ⟨S3Request.serve⟩

abbrev S3State (S : Type) := State S S3Call S3Request S3Answer StoreError S3Reply

abbrev S3Step := Step S3Call Failure

def S3State.empty : S3State Bucket := ⟨fun _ => none, []⟩

def contentsOf (steps : List S3Step) : List Content :=
  steps.flatMap fun
    | .begin call => call.contents
    | .reach _ | .answer _ | .giveUp _ _ => []

section Moves

variable (contents : List Content)

def Addressed (bucket : Bucket) : Prop :=
  ∀ key held, bucket key = some held → held ∈ contents ∧ key = keyFor (digestOf held)

structure Moves (bucket later : Bucket) : Prop where
  kept : ∀ key held, bucket key = some held → later key = some held
  addressed : Addressed contents bucket → Addressed contents later

def Since (began bucket : Bucket) : Prop := Addressed contents bucket ∧ Moves contents began bucket

variable {contents} {began bucket later : Bucket} {data : Content} {key : Text}

theorem Moves.refl (bucket : Bucket) : Moves contents bucket bucket := ⟨fun _ _ h => h, fun h => h⟩

theorem Moves.trans (h : Moves contents began bucket) (hlater : Moves contents bucket later) :
    Moves contents began later :=
  ⟨fun key held hheld => hlater.kept key held (h.kept key held hheld),
    fun haddressed => hlater.addressed (h.addressed haddressed)⟩

theorem Moves.of_steps (h : Relation.ReflTransGen (Moves contents) began bucket) :
    Moves contents began bucket := by
  induction h with
  | refl => exact Moves.refl began
  | tail _ hlast ih => exact ih.trans hlast

theorem stable_addressed : Stable (Moves contents) (Addressed contents) := fun _ _ h hmoves =>
  hmoves.addressed h

theorem stable_since : Stable (Moves contents) (Since contents began) := fun _ _ h hmoves =>
  ⟨hmoves.addressed h.1, h.2.trans hmoves⟩

theorem stable_held : Stable (Moves contents) fun bucket => bucket key = some data :=
  fun _ _ h hmoves => hmoves.kept key data h

theorem keyFor_inj {data other : Content}
    (h : keyFor (digestOf data) = keyFor (digestOf other)) : digestOf data = digestOf other := by
  rw [← lastSegment_keyFor (slash_notMem_digestOf data), h,
    lastSegment_keyFor (slash_notMem_digestOf other)]

theorem Addressed.eq (h : Addressed contents bucket) (hfree : CollisionFree digestOf contents)
    (hdata : data ∈ contents) {held : Content}
    (hheld : bucket (keyFor (digestOf data)) = some held) : held = data := by
  obtain ⟨hmem, hkey⟩ := h _ held hheld
  exact (hfree.eq hdata hmem (keyFor_inj hkey)).symm

theorem moves_update (h : Addressed contents bucket) (hfree : CollisionFree digestOf contents)
    (hdata : data ∈ contents) :
    Moves contents bucket (Function.update bucket (keyFor (digestOf data)) (some data)) := by
  refine ⟨fun key held hheld => ?_, fun _ key held hheld => ?_⟩
  · by_cases hkey : key = keyFor (digestOf data)
    · subst hkey
      rw [Function.update_self, h.eq hfree hdata hheld]
    · rw [Function.update_of_ne hkey, hheld]
  · by_cases hkey : key = keyFor (digestOf data)
    · subst hkey
      rw [Function.update_self] at hheld
      cases hheld
      exact ⟨hdata, rfl⟩
    · rw [Function.update_of_ne hkey] at hheld
      exact h key held hheld

end Moves

namespace S3ObjectStore

variable {contents : List Content} {began : Bucket} {data : Content} {key : Text} {α : Type}

/-- A read answers what the bucket held at some moment since the call began. -/
theorem existsAndGet_bind {Q : Exit StoreError α → Bucket → Prop}
    {f : Option Content → S3Program α}
    (hsome : ∀ held, Sound S3Request.serve (Moves contents) Q (f (some held))
      fun bucket => Since contents began bucket ∧ bucket key = some held)
    (hnone : Sound S3Request.serve (Moves contents) Q (f none)
      fun bucket => Since contents began bucket ∧ began key = none) :
    Sound S3Request.serve (Moves contents) Q (S3ObjectStore.existsAndGet key >>= f)
      (Since contents began) := by
  intro bucket hsince
  refine ⟨Moves.refl bucket, ?_⟩
  cases hheld : bucket key with
  | some held =>
    refine ⟨_, stable_since.and stable_held, ⟨hsince, hheld⟩, ?_⟩
    have hnext := hsome held
    simp only [S3Request.serve, hheld]
    exact hnext
  | none =>
    have habsent : began key = none := by
      cases hbegan : began key with
      | none => rfl
      | some held =>
        have hkept := hsince.2.kept key held hbegan
        rw [hheld] at hkept
        cases hkept
    refine ⟨_, stable_since.and (stable_fact _), ⟨hsince, habsent⟩, ?_⟩
    simp only [S3Request.serve, hheld]
    exact hnone

theorem get_spec {Q : Exit StoreError Content → Bucket → Prop}
    (hheld : ∀ held bucket, Since contents began bucket → bucket key = some held →
      Q (.returned held) bucket)
    (hmissing : ∀ bucket, Since contents began bucket → began key = none →
      Q (.raised (.keyError key)) bucket) :
    Sound S3Request.serve (Moves contents) Q (S3ObjectStore.get key) (Since contents began) :=
  existsAndGet_bind (fun held => sound_pure fun bucket h => hheld held bucket h.1 h.2)
    (sound_raise fun bucket h => hmissing bucket h.1 h.2)

theorem objectExists_spec {Q : Exit StoreError Bool → Bucket → Prop}
    (htrue : ∀ held bucket, Since contents began bucket → bucket key = some held →
      Q (.returned true) bucket)
    (hfalse : ∀ bucket, Since contents began bucket → began key = none →
      Q (.returned false) bucket) :
    Sound S3Request.serve (Moves contents) Q (S3ObjectStore.objectExists key)
      (Since contents began) :=
  existsAndGet_bind (fun held => sound_pure fun bucket h => htrue held bucket h.1 h.2)
    (sound_pure fun bucket h => hfalse bucket h.1 h.2)

theorem verifyFixity_spec {Q : Exit StoreError Bool → Bucket → Prop}
    (htrue : ∀ held bucket, Since contents began bucket → bucket key = some held →
      Q (.returned true) bucket)
    (hmissing : ∀ bucket, Since contents began bucket → began key = none →
      Q (.raised (.keyError key)) bucket) :
    Sound S3Request.serve (Moves contents) Q (S3ObjectStore.verifyFixity key)
      (Since contents began) := by
  refine sound_bind (R := fun held bucket => Since contents began bucket ∧ bucket key = some held)
    (get_spec (fun held bucket hsince hheld => ⟨hsince, hheld⟩) hmissing) fun held => ?_
  refine sound_pure fun bucket h => ?_
  obtain ⟨-, hkey⟩ := h.1.1 key held h.2
  have hpasses : decide (digestOf held = lastSegment key) = true := by
    rw [hkey, lastSegment_keyFor (slash_notMem_digestOf held), decide_eq_true rfl]
  rw [hpasses]
  exact htrue held bucket h.1 h.2

theorem streamedContentMatches_spec {spooled : FileObject} (hbytes : spooled.bytes = data)
    {Q : Exit StoreError Bool → Bucket → Prop}
    (hsame : ∀ bucket, Since contents began bucket →
      bucket (keyFor (digestOf data)) = some data → Q (.returned true) bucket) :
    Sound S3Request.serve (Moves contents) Q
      (streamedContentMatches (keyFor (digestOf data)) spooled)
      fun bucket => Since contents began bucket ∧ bucket (keyFor (digestOf data)) = some data := by
  intro bucket h
  refine ⟨Moves.refl bucket, _, stable_since.and stable_held, h, ?_⟩
  simp only [S3Request.serve, h.2]
  refine sound_pure fun bucket h => ?_
  have hmatches : FileObject.sameRest 1048576 (FileObject.opened data) spooled.rewind = true := by
    rw [FileObject.sameRest_iff]
    simp [hbytes]
  rw [hmatches]
  exact hsame bucket h.1 h.2

section Writes

variable (hfree : CollisionFree digestOf contents) (hdata : data ∈ contents)
include hfree hdata

/-- The place of the content is free or holds it, whatever the others have done since the
look. -/
theorem put_spec {Q : Exit StoreError PutResult → Bucket → Prop}
    (hstored : ∀ created bucket, Since contents began bucket →
      bucket (keyFor (digestOf data)) = some data →
      (created = true → began (keyFor (digestOf data)) = none) →
      Q (.returned ⟨keyFor (digestOf data), digestOf data, created⟩) bucket) :
    Sound S3Request.serve (Moves contents) Q (put data) (Since contents began) := by
  refine existsAndGet_bind (fun held => ?_) ?_
  · by_cases heq : held = data
    · subst heq
      simp only [ne_eq, not_true_eq_false, if_false]
      exact sound_pure fun bucket h => hstored false bucket h.1 h.2 fun h => Bool.noConfusion h
    · simp only [ne_eq, heq, not_false_eq_true, if_true]
      exact sound_raise fun bucket h => absurd (h.1.1.eq hfree hdata h.2) heq
  · refine sound_request_bind (R := fun _ bucket => (Since contents began bucket ∧
      bucket (keyFor (digestOf data)) = some data) ∧ began (keyFor (digestOf data)) = none)
      (fun _ => (stable_since.and stable_held).and (stable_fact _)) (fun bucket h => ?_) fun _ => ?_
    · have hmoves := moves_update h.1.1 hfree hdata
      exact ⟨hmoves, ⟨stable_since _ _ h.1 hmoves, Function.update_self _ _ _⟩, h.2⟩
    · exact sound_pure fun bucket h => hstored true bucket h.1.1 h.1.2 fun _ => h.2

theorem writeNewObject_spec {fileobj : FileObject} (hbytes : fileobj.rest = data)
    {Q : Exit StoreError Unit → Bucket → Prop}
    (hwritten : ∀ bucket, Since contents began bucket →
      bucket (keyFor (digestOf data)) = some data → Q (.returned ()) bucket) :
    Sound S3Request.serve (Moves contents) Q (writeNewObject (keyFor (digestOf data)) fileobj)
      (Since contents began) := by
  refine sound_request_bind (R := fun _ bucket => Since contents began bucket ∧
    bucket (keyFor (digestOf data)) = some data)
    (fun _ => stable_since.and stable_held) (fun bucket h => ?_) fun _ => ?_
  · have hmoves := moves_update h.1 hfree hdata
    refine ⟨by rw [← hbytes] at hmoves ⊢; exact hmoves, ?_, ?_⟩
    · rw [S3Request.serve, hbytes]
      exact stable_since _ _ h hmoves
    · rw [S3Request.serve, hbytes]
      exact Function.update_self _ _ _
  · exact sound_pure fun bucket h => hwritten bucket h.1 h.2

end Writes

theorem receive_fails (stream : UploadStream) (chunkSize : ℕ+) (fault : Option (ℕ × Failure))
    (index : ℕ) (remaining hashed : Content) (spooled : FileObject) :
    Fallible.Triple (fun _ => True) (stream.receive chunkSize
        { names := [], receive := fault.map fun fault => (fault.1, fault.2.interruption) }
        index remaining hashed spooled)
      (fun _ _ => True) (fun error _ => ∃ description, error = .failure description)
      fun _ => True := by
  fun_induction stream.receive chunkSize
    { names := [], receive := fault.map fun fault => (fault.1, fault.2.interruption) }
    index remaining hashed spooled with
  | case1 index remaining hashed spooled reads interruption hfault =>
    obtain ⟨hmap, -⟩ := Option.filter_eq_some_iff.mp hfault
    obtain ⟨met, -, hmet⟩ := Option.map_eq_some_iff.mp hmap
    obtain ⟨-, rfl⟩ := Prod.mk.inj hmet
    cases met.2 with
    | some description => exact Fallible.triple_raise fun _ _ => ⟨description, rfl⟩
    | none => exact fun _ _ => trivial
  | case2 index remaining hashed spooled hfault hdone => exact Fallible.triple_pure fun _ _ => trivial
  | case3 index remaining hashed spooled hfault hmore chunk ih => exact ih

theorem hashStreamToSpooledTempfile_fails (stream : UploadStream) (chunkSize : ℕ+)
    (fault : Option (ℕ × Failure)) :
    Fallible.Triple (fun _ => True) (hashStreamToSpooledTempfile stream chunkSize
        { names := [], receive := fault.map fun fault => (fault.1, fault.2.interruption) })
      (fun _ _ => True) (fun error _ => ∃ description, error = .failure description)
      fun _ => True :=
  Fallible.triple_bind (receive_fails stream chunkSize fault 0 stream.content [] FileObject.empty)
    fun _ => Fallible.triple_pure fun _ _ => trivial

theorem receive_spec (stream : UploadStream) (chunkSize : ℕ+) (fault : Option (ℕ × Failure))
    {P : Bucket → Prop} {Q : Exit StoreError (Text × FileObject) → Bucket → Prop}
    (hreceived : ∀ spooled bucket, P bucket → spooled.bytes = stream.content →
      Q (.returned (digestOf stream.content, spooled)) bucket)
    (hfailed : ∀ description bucket, Q (.raised (.failure description)) bucket)
    (hcrashed : ∀ bucket, Q .crashed bucket) :
    Sound S3Request.serve (Moves contents) Q (receive stream chunkSize fault) P := by
  intro bucket h
  have hspec := hashStreamToSpooledTempfile_spec (fun _ => none)
    { names := [], receive := fault.map fun fault => (fault.1, fault.2.interruption) } stream
    chunkSize _ rfl
  have hfails := hashStreamToSpooledTempfile_fails stream chunkSize fault (fun _ => none) trivial
  cases hrun : hashStreamToSpooledTempfile stream chunkSize
    { names := [], receive := fault.map fun fault => (fault.1, fault.2.interruption) }
    fun _ => none with
  | mk exit disk =>
    rw [hrun] at hspec hfails
    cases exit with
    | returned received =>
      obtain ⟨digest, spooled⟩ := received
      obtain ⟨hdigest, hbytes, -⟩ := hspec
      have hreturned := hreceived spooled bucket h hbytes
      rw [← hdigest] at hreturned
      exact hreturned
    | raised error =>
      obtain ⟨description, rfl⟩ := hfails
      exact hfailed description bucket
    | crashed => exact hcrashed bucket

theorem putStream_spec (hfree : CollisionFree digestOf contents) (stream : UploadStream)
    (hdata : stream.content ∈ contents) (chunkSize : ℕ+) (fault : Option (ℕ × Failure))
    {Q : Exit StoreError PutResult → Bucket → Prop}
    (hstored : ∀ created bucket, Since contents began bucket →
      bucket (keyFor (digestOf stream.content)) = some stream.content →
      (created = true → began (keyFor (digestOf stream.content)) = none) →
      Q (.returned ⟨keyFor (digestOf stream.content), digestOf stream.content, created⟩) bucket)
    (hfailed : ∀ description bucket, Q (.raised (.failure description)) bucket)
    (hcrashed : ∀ bucket, Q .crashed bucket) :
    Sound S3Request.serve (Moves contents) Q (putStream stream chunkSize fault)
      (Since contents began) := by
  refine sound_bind (R := fun received bucket => (received.1 = digestOf stream.content ∧
    received.2.bytes = stream.content) ∧ Since contents began bucket)
    (receive_spec stream chunkSize fault (fun spooled bucket h hbytes => ⟨⟨rfl, hbytes⟩, h⟩)
      hfailed hcrashed) fun received => ?_
  obtain ⟨digest, spooled⟩ := received
  refine sound_fact fun hreceived => ?_
  obtain ⟨rfl, hbytes⟩ := hreceived
  refine sound_bind (R := fun found bucket => Since contents began bucket ∧
    if found then bucket (keyFor (digestOf stream.content)) = some stream.content
    else began (keyFor (digestOf stream.content)) = none)
    (objectExists_spec (fun held bucket h hheld => ⟨h, ?_⟩) fun bucket h habsent => ⟨h, habsent⟩)
    fun found => ?_
  · rw [if_pos rfl, hheld, h.1.eq hfree hdata hheld]
  · cases found with
    | true =>
      refine sound_bind (R := fun same bucket => same = true ∧ Since contents began bucket ∧
        bucket (keyFor (digestOf stream.content)) = some stream.content)
        (streamedContentMatches_spec hbytes fun bucket h hheld => ⟨rfl, h, hheld⟩) fun same => ?_
      refine sound_fact fun hsame => ?_
      rw [hsame]
      exact sound_pure fun bucket h => hstored false bucket h.1 h.2 fun h => Bool.noConfusion h
    | false =>
      have hrest : spooled.rewind.rest = stream.content := by rw [FileObject.rest_rewind, hbytes]
      refine (sound_fact fun habsent => ?_).weaken fun bucket h => ⟨h.2, h.1⟩
      refine sound_bind (R := fun _ bucket => Since contents began bucket ∧
        bucket (keyFor (digestOf stream.content)) = some stream.content)
        (writeNewObject_spec hfree hdata hrest fun bucket h hheld => ⟨h, hheld⟩) fun _ => ?_
      exact sound_pure fun bucket h => hstored true bucket h.1 h.2 fun _ => habsent

end S3ObjectStore

section Runs

/-- What a `put` says of the content it was given. -/
structure StoredFor (began bucket : Bucket) (data : Content) (result : PutResult) : Prop where
  digest : result.digest = digestOf data
  key : result.key = keyFor (digestOf data)
  held : bucket (keyFor (digestOf data)) = some data
  created : result.created = true → began (keyFor (digestOf data)) = none

/-- What a call may answer, by the bucket when it began and the bucket now. -/
def Answered (began bucket : Bucket) : S3Call → S3Reply → Prop
  | .put data, .put result => StoredFor began bucket data result
  | .putStream stream _ _, .put result => StoredFor began bucket stream.content result
  | .get key, .content data => bucket key = some data ∧ key = keyFor (digestOf data)
  | .objectExists key, .flag answer => if answer then (bucket key).isSome else began key = none
  | .verifyFixity key, .flag answer => answer = true ∧ (bucket key).isSome
  | _, _ => False

def MayRaise (began : Bucket) : S3Call → StoreError → Prop
  | _, .failure _ => True
  | .get key, .keyError missing => missing = key ∧ began key = none
  | .verifyFixity key, .keyError missing => missing = key ∧ began key = none
  | _, _ => False

def Honoured (call : S3Call) (began : Bucket) (exit : Exit StoreError S3Reply) (bucket : Bucket) :
    Prop :=
  match exit with
  | .returned reply => Answered began bucket call reply
  | .raised error => MayRaise began call error
  | .crashed => True

variable {contents : List Content}

theorem program_spec (hfree : CollisionFree digestOf contents) (call : S3Call)
    (hcontents : call.contents ⊆ contents) (began : Bucket) :
    Sound S3Request.serve (Moves contents) (Honoured call began) call.program
      (Since contents began) := by
  cases call with
  | put data =>
    refine sound_bind (R := fun result bucket => StoredFor began bucket data result)
      (S3ObjectStore.put_spec hfree (hcontents List.mem_cons_self)
        fun created bucket _ hheld hcreated => ⟨rfl, rfl, hheld, hcreated⟩)
      fun result => sound_pure fun bucket h => h
  | putStream stream chunkSize fault =>
    refine sound_bind (R := fun result bucket => StoredFor began bucket stream.content result)
      (S3ObjectStore.putStream_spec hfree stream (hcontents List.mem_cons_self) chunkSize fault
        (fun created bucket _ hheld hcreated => ⟨rfl, rfl, hheld, hcreated⟩)
        (fun _ _ => trivial) fun _ => trivial)
      fun result => sound_pure fun bucket h => h
  | get key =>
    refine sound_bind (R := fun data (bucket : Bucket) =>
        bucket key = some data ∧ key = keyFor (digestOf data))
      (S3ObjectStore.get_spec (fun held bucket h hheld => ⟨hheld, (h.1 key held hheld).2⟩)
        fun bucket _ habsent => ⟨rfl, habsent⟩)
      fun data => sound_pure fun bucket h => h
  | objectExists key =>
    refine sound_bind (R := fun answer bucket =>
        if answer then (bucket key).isSome else began key = none)
      (S3ObjectStore.objectExists_spec (fun held bucket _ hheld => ?_) fun bucket _ habsent => ?_)
      fun answer => sound_pure fun bucket h => h
    · simp [firstPart, hheld]
    · simpa [firstPart] using habsent
  | verifyFixity key =>
    refine sound_bind (R := fun answer (bucket : Bucket) => answer = true ∧ (bucket key).isSome)
      (S3ObjectStore.verifyFixity_spec
        (fun held bucket _ hheld => ⟨rfl, Option.isSome_iff_exists.mpr ⟨held, hheld⟩⟩)
        fun bucket _ habsent => ⟨rfl, habsent⟩)
      fun answer => sound_pure fun bucket h => h

theorem s3_discipline (hfree : CollisionFree digestOf contents) :
    Discipline bucketClients (Moves contents) (Addressed contents) Honoured
      fun call => call.contents ⊆ contents where
  refl := Moves.refl
  stable := stable_addressed
  begins call began hcontents haddressed :=
    ⟨Since contents began, stable_since, ⟨haddressed, Moves.refl began⟩,
      program_spec hfree call hcontents began⟩
  givenUp call began failure bucket := by
    cases failure with
    | some description =>
      cases call <;> trivial
    | none => trivial

theorem admitted_contents {steps : List S3Step} (hsteps : contentsOf steps ⊆ contents)
    {state : S3State Bucket} : Runs.AllSteps (step bucketClients)
      (Admitted fun call : S3Call => call.contents ⊆ contents) state steps :=
  admitted_of_forall fun _ hcall _ hdata =>
    hsteps (List.mem_flatMap.mpr ⟨_, hcall, hdata⟩)

/-- A client whose `put` of the content has returned. -/
def HasStored (state : S3State Bucket) (i : ℕ) (data : Content) (result : PutResult) : Prop :=
  ∃ client, state.clients[i]? = some client ∧ client.call.contents = [data] ∧
    client.program = .ended (.returned (.put result))

/-- What holds of a bucket whatever its clients do at the same time. -/
structure Interleaved (contents : List Content) (state later : S3State Bucket) : Prop where
  addressed : Addressed contents later.store
  immutable : ∀ key held, state.store key = some held → later.store key = some held
  honoured : ∀ client ∈ later.clients, ∀ exit, client.program = .ended exit →
    Honoured client.call client.began exit later.store
  /-- A `put` that begins after one of the same content has returned creates nothing. -/
  deduplicated : ∀ i j data first second, HasStored state i data first →
    state.clients.length ≤ j → HasStored later j data second →
    second.key = first.key ∧ second.digest = first.digest ∧ second.created = false
  /-- A `get` that begins after a `put` has returned does not miss the object. -/
  readable : ∀ i j data result (client : Client _ _ _ _ _ _) exit, HasStored state i data result →
    state.clients.length ≤ j → later.clients[j]? = some client →
    client.call = .get result.key → client.program = .ended exit →
    exit = .returned (.content data) ∨ exit = .crashed ∨
      ∃ description, exit = .raised (.failure description)

theorem storedFor_of_honoured {call : S3Call} {began bucket : Bucket} {data : Content}
    {result : PutResult} (hcontents : call.contents = [data])
    (h : Honoured call began (.returned (.put result)) bucket) :
    StoredFor began bucket data result := by
  cases call with
  | put other =>
    cases hcontents
    exact h
  | putStream stream chunkSize fault =>
    cases hcontents
    exact h
  | get key => cases hcontents
  | objectExists key => cases hcontents
  | verifyFixity key => cases hcontents

/-- The invariant of the clients, after a run and after more of it. -/
structure Reached (contents : List Content) (state later : S3State Bucket) : Prop where
  before : Invariant bucketClients (Moves contents) (Addressed contents) Honoured state
  after : Invariant bucketClients (Moves contents) (Addressed contents) Honoured later
  moves : Moves contents state.store later.store
  follows : Follows (Moves contents) state later

theorem reached_of_runs {before after : List S3Step} {state later : S3State Bucket}
    (hstate : Runs.run (step bucketClients) S3State.empty before = some state)
    (hlater : Runs.run (step bucketClients) state after = some later)
    (hfree : CollisionFree digestOf (contentsOf (before ++ after))) :
    Reached (contentsOf (before ++ after)) state later := by
  have hsplit : contentsOf (before ++ after) = contentsOf before ++ contentsOf after :=
    List.flatMap_append
  have hempty : Invariant bucketClients (Moves (contentsOf (before ++ after)))
      (Addressed (contentsOf (before ++ after))) Honoured S3State.empty :=
    ⟨fun _ _ h => (nomatch h), fun _ h => absurd h List.not_mem_nil⟩
  have hbefore := (s3_discipline hfree).run hempty
    (admitted_contents (by rw [hsplit]; exact List.subset_append_left _ _)) hstate
  have hadmitted : Runs.AllSteps (step bucketClients)
      (Admitted fun call : S3Call => call.contents ⊆ contentsOf (before ++ after)) state after :=
    admitted_contents (by rw [hsplit]; exact List.subset_append_right _ _)
  have hafter := (s3_discipline hfree).run hbefore.1 hadmitted hlater
  exact ⟨hbefore.1, hafter.1, Moves.of_steps hafter.2,
    (s3_discipline hfree).follows hbefore.1 hadmitted hlater⟩

section Order

variable {state later : S3State Bucket} {i j : ℕ} {data : Content} {result : PutResult}

theorem HasStored.storedFor (hinvariant : Invariant bucketClients (Moves contents)
    (Addressed contents) Honoured state) (h : HasStored state i data result) :
    ∃ client, state.clients[i]? = some client ∧
      StoredFor client.began state.store data result := by
  obtain ⟨⟨call, began, program⟩, hi, hcontents, hended⟩ := h
  obtain rfl : program = .ended (.returned (.put result)) := hended
  exact ⟨_, hi, storedFor_of_honoured hcontents (hinvariant.ended (List.mem_of_getElem? hi))⟩

/-- A client that begins after a `put` has returned begins with its object there. -/
theorem Reached.began_held (h : Reached contents state later) (hstored : HasStored state i data result)
    {client : Client Bucket S3Call S3Request S3Answer StoreError S3Reply}
    (hj : later.clients[j]? = some client) (hafter : state.clients.length ≤ j) :
    client.began (keyFor (digestOf data)) = some data := by
  obtain ⟨first, -, hfirst⟩ := hstored.storedFor h.before
  exact (Moves.of_steps (h.follows.began j client hj hafter)).kept _ _ hfirst.held

theorem Reached.deduplicated (h : Reached contents state later) {first second : PutResult}
    (hfirst : HasStored state i data first) (hafter : state.clients.length ≤ j)
    (hsecond : HasStored later j data second) :
    second.key = first.key ∧ second.digest = first.digest ∧ second.created = false := by
  obtain ⟨earlier, -, hnamed⟩ := hfirst.storedFor h.before
  obtain ⟨client, hj, hagain⟩ := hsecond.storedFor h.after
  have hheld := h.began_held hfirst hj hafter
  refine ⟨by rw [hagain.key, hnamed.key], by rw [hagain.digest, hnamed.digest], ?_⟩
  cases hcreated : second.created with
  | false => rfl
  | true =>
    rw [hagain.created hcreated] at hheld
    cases hheld

theorem Reached.readable (h : Reached contents state later) (hstored : HasStored state i data result)
    {client : Client Bucket S3Call S3Request S3Answer StoreError S3Reply}
    {exit : Exit StoreError S3Reply} (hafter : state.clients.length ≤ j)
    (hj : later.clients[j]? = some client) (hcall : client.call = .get result.key)
    (hended : client.program = .ended exit) :
    exit = .returned (.content data) ∨ exit = .crashed ∨
      ∃ description, exit = .raised (.failure description) := by
  have hbegan := h.began_held hstored hj hafter
  obtain ⟨first, -, hfirst⟩ := hstored.storedFor h.before
  have hlater := h.moves.kept _ _ hfirst.held
  obtain ⟨call, began, program⟩ := client
  obtain rfl : call = .get result.key := hcall
  obtain rfl : program = .ended exit := hended
  have hhonoured := h.after.ended (List.mem_of_getElem? hj)
  rw [← hfirst.key] at hbegan hlater
  cases exit with
  | returned reply =>
    left
    cases reply with
    | content read =>
      have hread : later.store result.key = some read := hhonoured.1
      rw [hlater] at hread
      rw [Option.some.inj hread]
    | put other => exact hhonoured.elim
    | flag answer => exact hhonoured.elim
  | raised error =>
    right
    right
    cases error with
    | failure description => exact ⟨description, rfl⟩
    | keyError missing =>
      have habsent : began result.key = none := hhonoured.2
      exact absurd (habsent.symm.trans hbegan) (Option.some_ne_none _).symm
    | alreadyExistsWithDifferentContent key => exact hhonoured.elim
    | fileExists => exact hhonoured.elim
    | fileNotFound => exact hhonoured.elim
  | crashed => exact .inr (.inl rfl)

end Order

theorem interleaved_of_runs (before after : List S3Step) {state later : S3State Bucket}
    (hstate : Runs.run (step bucketClients) S3State.empty before = some state)
    (hlater : Runs.run (step bucketClients) state after = some later)
    (hfree : CollisionFree digestOf (contentsOf (before ++ after))) :
    Interleaved (contentsOf (before ++ after)) state later := by
  have hreached := reached_of_runs hstate hlater hfree
  refine ⟨hreached.after.store, hreached.moves.kept, fun client hclient exit hended => ?_,
    fun _ _ _ _ _ => hreached.deduplicated, fun _ _ _ _ _ _ hstored => hreached.readable hstored⟩
  obtain ⟨call, began, program⟩ := client
  obtain rfl : program = .ended exit := hended
  exact hreached.after.ended hclient

/-- A bucket is content-addressed and immutable under any interleaving of its clients'
requests, lost answers, repetitions and failures among them. -/
theorem s3_interleaved {service : S3Service S} {view : S → Bucket} (hservice : service.Follows view)
    {start : S} (hempty : view start = fun _ => none) (before after : List S3Step)
    {state later : S3State S}
    (hstate : Runs.run (step (s3Clients service)) ⟨start, []⟩ before = some state)
    (hlater : Runs.run (step (s3Clients service)) state after = some later)
    (hfree : CollisionFree digestOf (contentsOf (before ++ after))) :
    Interleaved (contentsOf (before ++ after)) (state.seenBy view) (later.seenBy view) := by
  have hstart : State.seenBy view (⟨start, []⟩ : S3State S) = S3State.empty := by
    simp only [State.seenBy, hempty, List.map_nil]
    rfl
  have hseen := run_seenBy hservice.servesAs hstate
  rw [hstart] at hseen
  exact interleaved_of_runs before after hseen (run_seenBy hservice.servesAs hlater) hfree

abbrev Versions := List (Text × Content)

def versionedService : S3Service Versions where
  serve
    | .getObject key, versions => (versions.lookup key, versions)
    | .putObject key body, versions => ((), (key, body) :: versions)
    | .uploadFileobj body key, versions => ((), (key, body) :: versions)

def Versions.newest (versions : Versions) : Bucket := fun key => versions.lookup key

theorem Versions.newest_cons (key : Text) (body : Content) (versions : Versions) :
    Versions.newest ((key, body) :: versions) =
      Function.update versions.newest key (some body) := by
  funext other
  by_cases hother : other = key
  · subst hother
    simp [newest]
  · have hbeq : (other == key) = false := beq_eq_false_iff_ne.mpr hother
    simp [newest, List.lookup_cons, hbeq, hother]

theorem versionedService_follows : versionedService.Follows Versions.newest where
  getObject _ _ := ⟨rfl, rfl⟩
  putObject key body versions := Versions.newest_cons key body versions
  uploadFileobj body key versions := Versions.newest_cons key body versions

def raceSteps : List S3Step :=
  [.begin (.put [104, 105]), .begin (.put [104, 105]), .answer 0, .answer 1, .reach 1, .answer 0]

def readSteps : List S3Step :=
  [.answer 1, .begin (.get (keyFor (digestOf [104, 105]))), .answer 2]

def raceState : S3State Versions :=
  (Runs.run (step (s3Clients versionedService)) ⟨[], []⟩ raceSteps).getD ⟨[], []⟩

def readState : S3State Versions :=
  (Runs.run (step (s3Clients versionedService)) raceState readSteps).getD ⟨[], []⟩

theorem s3_interleaved_race : Interleaved (contentsOf (raceSteps ++ readSteps))
    (raceState.seenBy Versions.newest) (readState.seenBy Versions.newest) := by
  have hstate : Runs.run (step (s3Clients versionedService)) ⟨[], []⟩ raceSteps =
      some raceState := rfl
  refine s3_interleaved versionedService_follows rfl raceSteps readSteps hstate rfl ?_
  have hfree : CollisionFree digestOf [[104, 105]] := collisionFree_of_nodup (by decide +kernel)
  exact hfree.mono fun content hcontent => by
    simpa [contentsOf, raceSteps, readSteps, S3Call.contents] using hcontent

end Runs

end LandRecords.Storage
