import LandRecords.Base.ContentAddressed
import LandRecords.Storage.LocalFs

/-! Each call has one of three effects on the store: it stops short and leaves at most a
temporary file, it finds its content, or it puts it there. The rest follows for every
sequence of calls. -/
namespace LandRecords.Storage

open ContentAddressed Fallible
open Ingest (Content digestOf keyFor)
open Review (lastSegment)

section Files

variable {α : Type} {start disk : Disk} {path temporary : Path} {bytes chunk : Content}
  {conditions : Conditions} {P : Disk → Prop}

@[simp] theorem place_place (later : Content) :
    place path later (place path bytes start) = place path later start :=
  Function.update_idem _ _ _

@[simp] theorem place_same : place path bytes start path = some bytes := Function.update_self _ _ _

theorem place_of_ne (hne : path ≠ temporary) : place temporary bytes start path = start path :=
  Function.update_of_ne hne _ _

theorem remove_place (hfree : start path = none) : remove path (place path bytes start) = start := by
  unfold remove place
  rw [Function.update_idem, ← hfree, Function.update_eq_self]

theorem remove_place_place (hne : path ≠ temporary) (hfree : start temporary = none) :
    remove temporary (place path bytes (place temporary bytes start)) = place path bytes start := by
  have hcomm : place path bytes (place temporary bytes start) =
      place temporary bytes (place path bytes start) := Function.update_comm hne.symm _ _ _
  rw [hcomm, remove_place]
  rw [place_of_ne hne.symm, hfree]

def Leftover (start : Disk) (temporary : Path) (disk : Disk) : Prop :=
  disk = start ∨ ∃ bytes, disk = place temporary bytes start

theorem leftover_placed (hdisk : disk = place temporary bytes start) :
    Leftover start temporary disk := .inr ⟨bytes, hdisk⟩

theorem triple_stop {Q : α → Disk → Prop} {E : StoreError → Disk → Prop} {C : Disk → Prop}
    (interruption : Interruption) (hraised : ∀ error disk, P disk → E error disk)
    (hcrashed : ∀ disk, P disk → C disk) : Triple P (stop interruption : Operation α) Q E C := by
  cases interruption with
  | raises error => exact triple_raise (hraised error)
  | crashes => exact hcrashed

theorem attempt_spec (P' : Disk → Prop) {R : Disk → Prop} (interruption : Option Interruption)
    {effect : Disk → Disk} (heffect : ∀ disk, P disk → P' (effect disk))
    (hR : ∀ disk, P disk → R disk) :
    Triple P (attempt interruption effect) (fun _ => P') (fun _ => R) R := by
  cases interruption with
  | none => exact heffect
  | some interruption => exact triple_stop interruption (fun _ => hR) hR

theorem append_spec : Triple (· = place temporary bytes start)
    (append conditions temporary chunk)
    (fun _ disk => disk = place temporary (bytes ++ chunk) start)
    (fun _ => Leftover start temporary) (Leftover start temporary) := by
  rintro _ rfl
  unfold append
  simp only [place_same, Option.getD_some, place_place]
  cases conditions.write with
  | none => rfl
  | some fault =>
    dsimp only
    by_cases hfits : bytes.length + chunk.length ≤ fault.1
    · rw [if_pos hfits]
    · rw [if_neg hfits]
      exact triple_stop (P := Leftover start temporary) fault.2 (fun _ _ h => h) (fun _ h => h) _
        (leftover_placed rfl)

theorem copyfileobj_spec (source : FileObject) : Triple (· = place temporary bytes start)
    (copyfileobj conditions source temporary)
    (fun _ disk => disk = place temporary (bytes ++ source.rest) start)
    (fun _ => Leftover start temporary) (Leftover start temporary) := by
  fun_induction copyfileobj conditions source temporary generalizing bytes with
  | case1 source hend =>
    have hnil : source.rest = [] :=
      (List.take_eq_nil_iff.mp hend).resolve_left copyBufsize.pos.ne'
    refine triple_pure fun disk hdisk => ?_
    rw [hnil, List.append_nil]
    exact hdisk
  | case2 source hmore ih =>
    refine triple_bind append_spec fun _ => ?_
    refine ih.imp (fun _ h => h) (fun _ disk hdisk => ?_) (fun _ _ h => h) fun _ h => h
    rw [hdisk, List.append_assoc]
    simp only [FileObject.read, FileObject.rest_advance, List.take_append_drop]

theorem unlink_spec (conditions : Conditions) (hfree : start temporary = none) :
    Triple (Leftover start temporary) (unlink conditions temporary) (fun _ disk => disk = start)
      (fun _ => Leftover start temporary) (Leftover start temporary) := by
  refine triple_pointwise fun disk hdisk => ?_
  rcases hdisk with rfl | ⟨bytes, rfl⟩
  · refine triple_read_bind (b := none) (fun _ hdisk => by rw [hdisk, hfree]) ?_
    exact triple_raise fun _ => .inl
  · refine triple_read_bind (b := some bytes) (fun _ hdisk => by rw [hdisk, place_same]) ?_
    refine attempt_spec _ _ (fun disk hdisk => ?_) fun _ => leftover_placed
    rw [hdisk, remove_place hfree]

theorem replace_spec (hne : path ≠ temporary) (hfree : start temporary = none) :
    Triple (· = place temporary bytes start) (replace conditions temporary path)
      (fun _ disk => disk = place path bytes start)
      (fun _ => Leftover start temporary) (Leftover start temporary) := by
  refine triple_read_bind (b := some bytes) (fun _ hdisk => by rw [hdisk, place_same]) ?_
  refine attempt_spec _ _ (fun disk hdisk => ?_) fun _ => leftover_placed
  rw [hdisk, remove_place_place hne hfree]

theorem cleanUp_spec {Q : α → Disk → Prop} (conditions : Conditions) (hfree : start temporary = none)
    (error : StoreError) :
    Triple (Leftover start temporary) (cleanUp conditions temporary error : Operation α) Q
      (fun _ => Leftover start temporary) (Leftover start temporary) := by
  refine triple_pointwise fun disk hdisk => ?_
  cases hheld : disk temporary with
  | none =>
    refine triple_read_bind (b := none) (fun _ h => by rw [h, hheld]) ?_
    exact triple_raise fun _ h => h ▸ hdisk
  | some held =>
    refine triple_read_bind (b := some held) (fun _ h => by rw [h, hheld]) ?_
    have hunlink : Triple (· = disk) (unlink conditions temporary) (fun _ later => later = start)
        (fun _ => Leftover start temporary) (Leftover start temporary) :=
      (unlink_spec conditions hfree).imp (fun _ h => h ▸ hdisk) (fun _ _ h => h) (fun _ _ h => h)
        fun _ h => h
    exact triple_bind hunlink fun _ => triple_raise fun _ h => .inl h

def Debris (start disk : Disk) : Prop :=
  disk = start ∨ ∃ directory random bytes, start (directory ++ [temporaryName random]) = none ∧
    disk = place (directory ++ [temporaryName random]) bytes start

theorem Leftover.debris {directory : Path} {random : Text}
    (h : Leftover start (directory ++ [temporaryName random]) disk)
    (hfree : start (directory ++ [temporaryName random]) = none) : Debris start disk := by
  rcases h with rfl | ⟨bytes, rfl⟩
  · exact .inl rfl
  · exact .inr ⟨directory, random, bytes, hfree, rfl⟩

theorem withTemporaryFile_spec (conditions : Conditions) {directory : Path} {body : Path → Operation α}
    {Q : α → Disk → Prop}
    (hbody : ∀ random, start (directory ++ [temporaryName random]) = none →
      Triple (· = place (directory ++ [temporaryName random]) [] start)
        (body (directory ++ [temporaryName random])) Q
        (fun _ => Leftover start (directory ++ [temporaryName random]))
        (Leftover start (directory ++ [temporaryName random]))) :
    Triple (· = start) (withTemporaryFile conditions directory body) Q
      (fun _ => Debris start) (Debris start) := by
  refine triple_bind (attempt_spec (· = start) _ (fun _ h => h) fun _ => .inl) fun _ => ?_
  refine triple_bind (R := fun made disk => ∃ random, made = directory ++ [temporaryName random] ∧
    start made = none ∧ disk = place made [] start) ?_ fun made => ?_
  · refine triple_read_bind (b := start) (fun _ h => h) ?_
    split
    · exact triple_raise fun _ => .inl
    · rename_i random hfound
      have hfree : start (directory ++ [temporaryName random]) = none := by
        simpa using List.find?_some hfound
      refine triple_bind (attempt_spec (· = place _ [] start) _ (by rintro _ rfl; rfl)
        fun _ => .inl) fun _ => triple_pure fun disk hdisk => ⟨random, rfl, hfree, hdisk⟩
  · refine triple_pointwise fun disk hmade => ?_
    obtain ⟨random, rfl, hfree, rfl⟩ := hmade
    have hhandled := triple_handle (hbody random hfree)
      fun error => cleanUp_spec conditions (Q := Q) hfree error
    exact hhandled.imp (fun _ h => h) (fun _ _ h => h) (fun _ _ h => h.debris hfree)
      fun _ h => h.debris hfree

end Files

section Keys

theorem digestOf_mem {data : Content} {c : Char} (h : c ∈ digestOf data) : c ∈ Text.digits := by
  obtain ⟨w, -, hc⟩ := List.mem_flatMap.mp h
  exact Text.numeral_mem (by decide) (by decide) hc

theorem length_digestOf (data : Content) : (digestOf data).length = 64 := by
  simp [digestOf, Sha256.hexWord]

theorem slash_notMem_digestOf (data : Content) : '/' ∉ digestOf data := fun h =>
  absurd (digestOf_mem h) (by decide)

theorem temporaryName_ne_digestOf (random : Text) (data : Content) :
    temporaryName random ≠ digestOf data := by
  intro heq
  have hmem : 't' ∈ digestOf data := heq ▸ List.mem_cons_self
  exact absurd (digestOf_mem hmem) (by decide)

variable {digest : Text}

theorem keyFor_eq : keyFor digest = "sha256".toList ++ ['/'] ++ digest.take 2 ++
    '/' :: (digest.drop 2).take 2 ++ '/' :: digest := by
  have hprefix : "sha256/".toList = "sha256".toList ++ ['/'] := by decide
  rw [← hprefix]
  rfl

theorem keyFor_eq_intercalate : keyFor digest = ['/'].intercalate
    ["sha256".toList, digest.take 2, (digest.drop 2).take 2, digest] := by
  rw [keyFor_eq]
  generalize "sha256".toList = scheme
  simp [List.intercalate]

theorem keyParts_keyFor (hlength : digest.length = 64) (hslash : '/' ∉ digest) :
    keyParts (keyFor digest) =
      ["sha256".toList, digest.take 2, (digest.drop 2).take 2, digest] := by
  have hparts : ∀ part ∈ ["sha256".toList, digest.take 2, (digest.drop 2).take 2, digest],
      '/' ∉ part ∧ 2 ≤ part.length := by
    intro part hpart
    simp only [List.mem_cons, List.not_mem_nil, or_false] at hpart
    rcases hpart with rfl | rfl | rfl | rfl
    · decide
    · exact ⟨fun h => hslash (List.mem_of_mem_take h), by simp [hlength]⟩
    · exact ⟨fun h => hslash (List.mem_of_mem_drop (List.mem_of_mem_take h)), by simp [hlength]⟩
    · exact ⟨hslash, by omega⟩
  rw [keyParts, keyFor_eq_intercalate, List.splitOn_intercalate _ (fun part h => (hparts part h).1)
    (List.cons_ne_nil _ _), List.filter_eq_self]
  intro part hpart
  have hlong := (hparts part hpart).2
  refine decide_eq_true ⟨?_, ?_⟩
  · rintro rfl
    simp at hlong
  · rintro rfl
    simp at hlong

theorem lastSegment_keyFor (hslash : '/' ∉ digest) : lastSegment (keyFor digest) = digest := by
  have hsplit : (keyFor digest).reverse = digest.reverse ++
      '/' :: ("sha256".toList ++ ['/'] ++ digest.take 2 ++ '/' :: (digest.drop 2).take 2).reverse := by
    rw [keyFor_eq]
    generalize "sha256".toList = scheme
    simp
  rw [lastSegment, hsplit, List.takeWhile_append_of_pos]
  · simp
  · intro c hc
    simpa using fun heq : c = '/' => hslash (heq ▸ List.mem_reverse.mp hc)

variable (store : LocalFsObjectStore)

def address (content : Content) : Path := store.path (keyFor (digestOf content))

theorem address_eq (content : Content) : address store content =
    store.root ++ ["sha256".toList, (digestOf content).take 2, ((digestOf content).drop 2).take 2] ++
      [digestOf content] := by
  have hhead : (keyFor (digestOf content)).head? ≠ some '/' := by
    have hfirst : "sha256".toList = 's' :: "ha256".toList := by decide
    rw [keyFor_eq, hfirst]
    exact fun h => absurd (Option.some.inj h) (by decide)
  rw [address, LocalFsObjectStore.path, if_neg hhead,
    keyParts_keyFor (length_digestOf content) (slash_notMem_digestOf content)]
  simp

theorem address_ne_temporary (content : Content) (directory : Path) (random : Text) :
    address store content ≠ directory ++ [temporaryName random] := by
  rw [address_eq]
  intro heq
  have hlast := List.append_inj_right' heq rfl
  exact temporaryName_ne_digestOf random content (List.singleton_inj.mp hlast).symm

theorem collisionFree_address {contents : List Content} (h : CollisionFree digestOf contents) :
    CollisionFree (address store) contents := by
  intro content hcontent other hother heq
  rw [address_eq, address_eq] at heq
  have hlast := List.append_inj_right' heq rfl
  exact h.eq hcontent hother (List.singleton_inj.mp hlast)

end Keys

section Calls

variable {store : LocalFsObjectStore} {start disk : Disk} {content : Content}
  {conditions : Conditions}

theorem Debris.cut (h : Debris start disk) : Effect (address store) content start disk none := by
  rcases h with rfl | ⟨directory, random, bytes, hfree, rfl⟩
  · exact .cut (fun _ _ h => h) fun _ => rfl
  · refine .cut (fun path held hheld => ?_) fun other => ?_
    · have hne : path ≠ directory ++ [temporaryName random] := by
        rintro rfl
        rw [hfree] at hheld
        cases hheld
      rw [place_of_ne hne, hheld]
    · exact place_of_ne (address_ne_temporary store other directory random)

def Answers (store : LocalFsObjectStore) (content : Content) (start : Disk) (result : PutResult)
    (disk : Disk) : Prop :=
  result.digest = digestOf content ∧ result.key = keyFor (digestOf content) ∧
    Effect (address store) content start disk (some result.created)

theorem answers_created (habsent : start (address store content) = none)
    (hdisk : disk = place (address store content) content start) :
    Answers store content start ⟨keyFor (digestOf content), digestOf content, true⟩ disk := by
  subst hdisk
  exact ⟨rfl, rfl, .created habsent place_same fun _ hne => place_of_ne hne⟩

theorem answers_present (hheld : start (address store content) = some content)
    (hdisk : disk = start) :
    Answers store content start ⟨keyFor (digestOf content), digestOf content, false⟩ disk :=
  ⟨rfl, rfl, .present hheld hdisk⟩

theorem put_spec (hsound : ∀ held, start (address store content) = some held → held = content) :
    Triple (· = start) (store.put content conditions) (Answers store content start)
      (fun _ disk => Effect (address store) content start disk none)
      (fun disk => Effect (address store) content start disk none) := by
  cases hstart : start (address store content) with
  | some held =>
    obtain rfl := hsound held hstart
    refine triple_read_bind (b := some held) (fun _ h => by rw [h]; exact hstart) ?_
    dsimp only
    rw [if_neg (not_not.mpr rfl)]
    exact triple_pure fun _ => answers_present hstart
  | none =>
    refine triple_read_bind (b := none) (fun _ h => by rw [h]; exact hstart) ?_
    refine triple_bind (R := fun created disk => created = true ∧
      disk = place (address store content) content start) ?_ fun created => ?_
    · refine (withTemporaryFile_spec conditions fun random hfree => ?_).imp (fun _ h => h)
        (fun _ _ h => h) (fun _ _ => Debris.cut) fun _ => Debris.cut
      have hne := address_ne_temporary store content (address store content).dropLast random
      refine triple_bind append_spec fun _ => ?_
      refine triple_bind (attempt_spec (· = _) _ (fun _ h => h) fun _ => leftover_placed)
        fun _ => ?_
      refine triple_read_bind (b := none)
        (fun _ h => by rw [h, ← hstart]; exact place_of_ne hne) ?_
      exact triple_bind (replace_spec hne hfree) fun _ => triple_pure fun _ h => ⟨rfl, h⟩
    · refine triple_pure fun disk hdisk => ?_
      obtain ⟨rfl, hplaced⟩ := hdisk
      exact answers_created hstart hplaced

/-- The whole of the stream is hashed and spooled, however it is cut into reads. -/
theorem receive_spec (stream : UploadStream) (chunkSize : ℕ+) (index : ℕ)
    (remaining hashed : Content) {spooled : FileObject} (hend : spooled.rest = []) :
    Triple (· = start) (stream.receive chunkSize conditions index remaining hashed spooled)
      (fun received disk => received.1 = hashed ++ remaining ∧
        received.2.bytes = spooled.bytes ++ remaining ∧ disk = start)
      (fun _ disk => disk = start) (· = start) := by
  fun_induction stream.receive chunkSize conditions index remaining hashed spooled with
  | case1 index remaining hashed spooled reads interruption hfault =>
    exact triple_stop interruption (fun _ _ h => h) fun _ h => h
  | case2 index remaining hashed spooled hfault hdone =>
    have hpos := stream.granted_pos index chunkSize chunkSize.pos
    have hnil : remaining = [] := (List.take_eq_nil_iff.mp hdone).resolve_left hpos.ne'
    subst hnil
    exact triple_pure fun disk hdisk => ⟨by simp, by simp, hdisk⟩
  | case3 index remaining hashed spooled hfault hmore chunk ih =>
    have hjoined : chunk ++ remaining.drop (stream.granted index chunkSize) = remaining :=
      List.take_append_drop _ _
    refine (ih (FileObject.rest_write_of_rest chunk hend)).imp (fun _ h => h)
      (fun received disk hreceived => ?_) (fun _ _ h => h) fun _ h => h
    obtain ⟨hhashed, hbytes, hdisk⟩ := hreceived
    refine ⟨?_, ?_, hdisk⟩
    · rw [hhashed, List.append_assoc, hjoined]
    · rw [hbytes, FileObject.bytes_write_of_rest chunk hend, List.append_assoc, hjoined]

theorem hashStreamToSpooledTempfile_spec (start : Disk) (conditions : Conditions)
    (stream : UploadStream) (chunkSize : ℕ+) :
    Triple (· = start) (hashStreamToSpooledTempfile stream chunkSize conditions)
      (fun received disk => received.1 = digestOf stream.content ∧
        received.2.bytes = stream.content ∧ disk = start)
      (fun _ disk => disk = start) (· = start) := by
  refine triple_bind (receive_spec stream chunkSize 0 stream.content [] rfl) fun received => ?_
  refine triple_pure fun disk hreceived => ?_
  obtain ⟨hhashed, hbytes, hdisk⟩ := hreceived
  rw [List.nil_append] at hhashed
  exact ⟨by rw [hhashed], hbytes, hdisk⟩

theorem writeNewObject_spec (conditions : Conditions) {fileobj : FileObject} (hbytes : fileobj.rest = content)
    (habsent : start (address store content) = none) : Triple (· = start)
      (store.writeNewObject (keyFor (digestOf content)) fileobj conditions)
      (fun _ disk => disk = place (address store content) content start)
      (fun _ => Debris start) (Debris start) := by
  refine withTemporaryFile_spec conditions fun random hfree => ?_
  have hne := address_ne_temporary store content (address store content).dropLast random
  refine triple_bind (copyfileobj_spec fileobj) fun _ => ?_
  rw [List.nil_append, hbytes]
  refine triple_bind (attempt_spec (· = _) _ (fun _ h => h) fun _ => leftover_placed)
    fun _ => ?_
  refine triple_read_bind (b := none) (fun _ h => by rw [h, ← habsent]; exact place_of_ne hne) ?_
  exact replace_spec hne hfree

theorem streamedContentMatches_spec {spooled : FileObject} {Q : Bool → Disk → Prop}
    {E : StoreError → Disk → Prop} {C : Disk → Prop} (hbytes : spooled.bytes = content)
    (hheld : start (address store content) = some content) (hQ : Q true start) :
    Triple (· = start) (store.streamedContentMatches (keyFor (digestOf content)) spooled) Q E C := by
  have hopened : Triple (· = start) (store.openStream (keyFor (digestOf content)))
      (fun existing disk => existing = FileObject.opened content ∧ disk = start) E C := by
    refine triple_read_bind (b := some content) (fun _ h => by rw [h, ← hheld]; rfl) ?_
    exact triple_pure fun _ h => ⟨rfl, h⟩
  refine triple_bind hopened fun existing => triple_pure fun disk hexisting => ?_
  obtain ⟨rfl, rfl⟩ := hexisting
  have hsame : FileObject.sameRest 1048576 (FileObject.opened content) spooled.rewind = true := by
    rw [FileObject.sameRest_iff]
    simp [hbytes]
  rw [hsame]
  exact hQ

theorem putStream_spec (stream : UploadStream) (chunkSize : ℕ+)
    (hsound : ∀ held, start (address store stream.content) = some held → held = stream.content) :
    Triple (· = start) (store.putStream stream chunkSize conditions)
      (Answers store stream.content start)
      (fun _ disk => Effect (address store) stream.content start disk none)
      (fun disk => Effect (address store) stream.content start disk none) := by
  have hreceived := hashStreamToSpooledTempfile_spec start conditions stream chunkSize
  refine triple_bind (hreceived.imp (fun _ h => h) (fun _ _ h => h) (fun _ _ h => Debris.cut (.inl h))
    fun _ h => Debris.cut (.inl h)) fun received => triple_pointwise fun disk hreceived => ?_
  obtain ⟨digest, spooled⟩ := received
  obtain ⟨rfl, hbytes, rfl⟩ := hreceived
  cases hdisk : disk (address store stream.content) with
  | some held =>
    obtain rfl := hsound held hdisk
    refine triple_read_bind (b := true)
      (fun _ h => by rw [h]; exact Option.isSome_iff_exists.mpr ⟨_, hdisk⟩) ?_
    refine triple_bind (streamedContentMatches_spec (Q := fun same later =>
      same = true ∧ later = disk) hbytes hdisk ⟨rfl, rfl⟩) fun same => ?_
    refine triple_pointwise fun later hsame => ?_
    obtain ⟨rfl, rfl⟩ := hsame
    exact triple_pure fun _ => answers_present hdisk
  | none =>
    refine triple_read_bind (b := false)
      (fun _ h => by rw [h]; exact Option.isSome_eq_false_iff.mpr (Option.isNone_iff_eq_none.mpr hdisk)) ?_
    have hwritten := writeNewObject_spec conditions
      (show spooled.rewind.rest = _ by rw [FileObject.rest_rewind, hbytes]) hdisk
    refine triple_bind (hwritten.imp (fun _ h => h) (fun _ _ h => h) (fun _ _ => Debris.cut)
      fun _ => Debris.cut) fun _ => ?_
    exact triple_pure fun _ => answers_created hdisk

theorem perform_spec (call : Call)
    (hsound : ∀ held, start (address store call.content) = some held → held = call.content) :
    Triple (· = start) (call.perform store) (Answers store call.content start)
      (fun _ disk => Effect (address store) call.content start disk none)
      (fun disk => Effect (address store) call.content start disk none) := by
  cases call with
  | put data conditions => exact put_spec hsound
  | putStream stream chunkSize conditions => exact putStream_spec stream chunkSize hsound

end Calls

section Runs

variable {store : LocalFsObjectStore} {start : Disk} {contents : List Content} {stored : Set Content}

def createdBy : Exit StoreError PutResult → Option Bool
  | .returned result => some result.created
  | .raised _ | .crashed => none

def eventOf (ended : Call × Exit StoreError PutResult) : Content × Option Bool :=
  (ended.1.content, createdBy ended.2)

theorem perform_effect (call : Call)
    (hsound : ∀ held, start (address store call.content) = some held → held = call.content) :
    Effect (address store) call.content start (call.perform store start).2
        (createdBy (call.perform store start).1) ∧
      ∀ result, (call.perform store start).1 = .returned result →
        result.digest = digestOf call.content ∧ result.key = keyFor (digestOf call.content) := by
  have hends := perform_spec call hsound start rfl
  cases hperform : call.perform store start with
  | mk exit next =>
    rw [hperform] at hends
    cases exit with
    | returned result =>
      refine ⟨hends.2.2, fun other hother => ?_⟩
      cases hother
      exact ⟨hends.1, hends.2.1⟩
    | raised error => exact ⟨hends, fun _ h => (nomatch h)⟩
    | crashed => exact ⟨hends, fun _ h => (nomatch h)⟩

/-- Every sequence of calls is a session of the abstract store, in which the calls that
return name their objects after the contents. -/
theorem runCalls_session (hfree : CollisionFree digestOf contents) (calls : List Call)
    (hcalls : ∀ call ∈ calls, call.content ∈ contents)
    (h : Represents (address store) contents start stored) :
    Session (address store) start ((runCalls store start calls).1.map eventOf)
        (runCalls store start calls).2 ∧
      ∀ call result, (call, .returned result) ∈ (runCalls store start calls).1 →
        result.digest = digestOf call.content ∧ result.key = keyFor (digestOf call.content) := by
  induction calls generalizing start stored with
  | nil => exact ⟨.nil, fun _ _ h => (nomatch h)⟩
  | cons call rest ih =>
    have hcontent := hcalls call List.mem_cons_self
    obtain ⟨heffect, hnamed⟩ := perform_effect call fun held => h.sound hcontent
    have hnext := h.step (collisionFree_address store hfree) hcontent heffect
    obtain ⟨hsession, hlater⟩ := ih (fun other hother =>
      hcalls other (List.mem_cons_of_mem _ hother)) hnext
    refine ⟨.cons heffect hsession, fun other result hmem => ?_⟩
    rcases List.mem_cons.mp hmem with heq | hmem
    · obtain ⟨rfl, hreturned⟩ := Prod.mk.inj heq
      exact hnamed result hreturned.symm
    · exact hlater other result hmem

theorem mem_returnedFor_iff {ended : List (Call × Exit StoreError PutResult)} {content : Content} :
    content ∈ returnedFor (ended.map eventOf) ↔
      ∃ call result, (call, .returned result) ∈ ended ∧ call.content = content := by
  constructor
  · rintro ⟨created, hmem⟩
    obtain ⟨⟨call, exit⟩, hended, hevent⟩ := List.mem_map.mp hmem
    obtain ⟨hcontent, hcreated⟩ := Prod.mk.inj hevent
    cases exit with
    | returned result => exact ⟨call, result, hended, hcontent⟩
    | raised error => cases hcreated
    | crashed => cases hcreated
  · rintro ⟨call, result, hended, rfl⟩
    exact ⟨result.created, List.mem_map.mpr ⟨_, hended, rfl⟩⟩

theorem get_held {disk : Disk} {key : Text} {content : Content}
    (h : disk (store.path key) = some content) : store.get key disk = (.returned content, disk) := by
  simp only [LocalFsObjectStore.get, read_bind, h]
  rfl

theorem get_eq_returned {disk : Disk} {key : Text} {content : Content} :
    (store.get key disk).1 = .returned content ↔ disk (store.path key) = some content := by
  refine ⟨fun hget => ?_, fun h => by rw [get_held h]⟩
  cases hdisk : disk (store.path key) with
  | none =>
    simp only [LocalFsObjectStore.get, read_bind, hdisk, raise_apply] at hget
    cases hget
  | some held =>
    rw [get_held hdisk] at hget
    cases hget
    rfl

theorem verifyFixity_of_held {disk : Disk} {content : Content}
    (h : disk (address store content) = some content) :
    (store.verifyFixity (keyFor (digestOf content)) disk).1 = .returned true := by
  rw [LocalFsObjectStore.verifyFixity, bind_returned (get_held h), pure_apply,
    lastSegment_keyFor (slash_notMem_digestOf content), decide_eq_true rfl]

theorem calls_of_runCalls (store : LocalFsObjectStore) (start : Disk) (calls : List Call) :
    (runCalls store start calls).1.map Prod.fst = calls := by
  induction calls generalizing start with
  | nil => rfl
  | cons call rest ih => exact congrArg (call :: ·) (ih _)

theorem content_of_event {calls : List Call} (hcalls : ∀ call ∈ calls, call.content ∈ contents)
    {event : Content × Option Bool} (h : event ∈ (runCalls store start calls).1.map eventOf) :
    event.1 ∈ contents := by
  obtain ⟨ended, hended, rfl⟩ := List.mem_map.mp h
  apply hcalls
  have hcall := List.mem_map_of_mem (f := Prod.fst) hended
  rwa [calls_of_runCalls] at hcall

structure Owed (store : LocalFsObjectStore) (earlier : List (Call × Exit StoreError PutResult))
    (content : Content) (result : PutResult) (later : Disk) : Prop where
  digest : result.digest = digestOf content
  key : result.key = keyFor result.digest
  named : ∀ call other, (call, .returned other) ∈ earlier → call.content = content →
    other.key = result.key ∧ other.digest = result.digest
  readable : (store.get result.key later).1 = .returned content
  fixity : (store.verifyFixity result.key later).1 = .returned true
  created : result.created = true ↔
    ∀ call other, (call, .returned other) ∈ earlier → call.content ≠ content

/-- What one call of a sequence brings about: if it returns, what it is owed holds after any
calls that follow; if not, what could be read before can be read after. -/
structure Immutable (store : LocalFsObjectStore) (start : Disk) (before : List Call) (call : Call)
    (after : List Call) : Prop where
  owed : ∀ result, (call.perform store (runCalls store start before).2).1 = .returned result →
    Owed store (runCalls store start before).1 call.content result
      (runCalls store (call.perform store (runCalls store start before).2).2 after).2
  untouched : (∀ result, (call.perform store (runCalls store start before).2).1 ≠
      .returned result) → ∀ key content,
    (store.get key (runCalls store start before).2).1 = .returned content →
      (store.get key (call.perform store (runCalls store start before).2).2).1 = .returned content

/-- The object store is content-addressed and immutable, over every sequence of calls of
both entry points, wherever they are interrupted. -/
theorem objectStore_immutable (store : LocalFsObjectStore) {start : Disk}
    (hempty : ∀ content, start (store.path (keyFor (digestOf content))) = none)
    (before : List Call) (call : Call) (after : List Call)
    (hfree : CollisionFree digestOf ((before ++ call :: after).map Call.content)) :
    Immutable store start before call after := by
  have hmem : ∀ other ∈ before ++ call :: after, other.content ∈
      (before ++ call :: after).map Call.content := fun other => List.mem_map_of_mem
  have hcontent := hmem call (List.mem_append_right _ List.mem_cons_self)
  have haddress := collisionFree_address store hfree
  obtain ⟨hsession, hnamed⟩ := runCalls_session hfree before
    (fun other hother => hmem other (List.mem_append_left _ hother))
    (represents_empty (address store) hempty)
  have hreached := (represents_empty (address store) hempty).run haddress hsession
    fun event hevent => content_of_event (fun other hother =>
      hmem other (List.mem_append_left _ hother)) hevent
  rw [Set.empty_union] at hreached
  obtain ⟨heffect, hanswer⟩ := perform_effect call fun held => hreached.sound hcontent
  refine ⟨fun result hreturned => ?_, fun _ key content hget => ?_⟩
  · obtain ⟨hdigest, hkey⟩ := hanswer result hreturned
    rw [hreturned] at heffect
    have hnext := hreached.step haddress hcontent heffect
    obtain ⟨hafter, -⟩ := runCalls_session hfree after (fun other hother =>
      hmem other (List.mem_append_right _ (List.mem_cons_of_mem _ hother))) hnext
    have hheld := hafter.keeps heffect.held
    refine ⟨hdigest, by rw [hkey, hdigest], fun other given hother hsame => ?_, ?_, ?_, ?_⟩
    · obtain ⟨hdigest', hkey'⟩ := hnamed other given hother
      rw [hdigest', hkey', hsame, hdigest, hkey]
      exact ⟨rfl, rfl⟩
    · rw [hkey, get_held hheld]
    · rw [hkey]
      exact verifyFixity_of_held hheld
    · rw [hreached.created_iff hcontent heffect, mem_returnedFor_iff]
      simp only [not_exists, not_and]
  · rw [get_eq_returned] at hget ⊢
    exact heffect.keeps hget

def byteByByte (content : Content) : UploadStream where
  content := content
  granted _ count := min 1 count
  granted_pos _ _ hcount := Nat.lt_min.mpr ⟨Nat.one_pos, hcount⟩
  granted_le _ _ := Nat.min_le_right _ _

def sampleStore : LocalFsObjectStore := ⟨["objects".toList]⟩

def failedUpload : Call :=
  .putStream (byteByByte [104, 105]) (Nat.succPNat 2)
    { names := ["a".toList], write := some (1, .raises (.failure "ENOSPC".toList)) }

def sampleUpload : Call := .putStream (byteByByte [104, 105]) 1 { names := ["a".toList] }

def samplePut : Call := .put [104, 105] { names := ["b".toList] }

theorem objectStore_immutable_sample :
    Immutable sampleStore (fun _ => none) [failedUpload] sampleUpload [samplePut] := by
  have hfree : CollisionFree digestOf [[104, 105]] := collisionFree_of_nodup (by decide +kernel)
  exact objectStore_immutable sampleStore (fun _ => rfl) [failedUpload] sampleUpload [samplePut]
    (hfree.mono fun content hcontent => by
      simpa [failedUpload, sampleUpload, samplePut, Call.content, byteByByte] using hcontent)

example : (runCalls sampleStore (fun _ => none) [failedUpload, sampleUpload, samplePut]).1.map
    (fun ended => createdBy ended.2) = [none, some true, some false] := by
  decide +kernel

end Runs

end LandRecords.Storage
