import LandRecords.Extract.Relationships

/-! Where the owners and the shares of a page end up. The bands of the parcels cover the page
from twenty above the first parcel on, and each of the others reaches twenty into the band
before it. -/
namespace LandRecords.Extract

/-! ## Bands -/

theorem bandStart_le {floats : FloatFormat} {pY : ℚ} (h : floats.IsFloat pY) :
    bandStart floats pY ≤ pY := h.sub_le (by norm_num) (by norm_num)

theorem bandStart_mono {floats : FloatFormat} {pY next : ℚ} (h : floats.IsFloat pY)
    (hle : pY ≤ next) : bandStart floats pY ≤ bandStart floats next :=
  h.sub_mono (by norm_num) (by norm_num) hle

def bands : List ℚ → List Band
  | [] => []
  | pY :: rest => { pY := pY, pNextY := rest.head? } :: bands rest

variable {floats : FloatFormat} {y : ℚ}

def Before (floats : FloatFormat) (next : Option ℚ) (y : ℚ) : Prop :=
  floats.belowInf y = true ∧ ∀ n ∈ next, y < n

theorem Before.mono {next : ℚ} {after : Option ℚ} (h : Before floats (some next) y)
    (hle : ∀ n ∈ after, next ≤ n) : Before floats after y :=
  ⟨h.1, fun n hn => (h.2 next rfl).trans_le (hle n hn)⟩

theorem before_of_lt {next : ℚ} (hnext : floats.IsFloat next) (h : y < next) :
    Before floats (some next) y := by
  refine ⟨hnext.belowInf_of_lt h, fun n hn => ?_⟩
  rwa [← Option.some.inj hn]

theorem Band.holds_iff {band : Band} (hnext : ∀ n ∈ band.pNextY, floats.IsFloat n) :
    band.holds floats y = true ↔ bandStart floats band.pY ≤ y ∧ Before floats band.pNextY y := by
  unfold Band.holds Before
  cases hband : band.pNextY with
  | none => simp
  | some next =>
    have hbelow : y < next → floats.belowInf y = true := (hnext next hband).belowInf_of_lt
    simpa using fun _ => hbelow

/-- From twenty above the first parcel on, the bands cover the page. -/
theorem exists_band {pY : ℚ} {rest : List ℚ} (hrest : ∀ p ∈ rest, floats.IsFloat p)
    (h : bandStart floats pY ≤ y) (hbelow : floats.belowInf y = true) :
    ∃ band ∈ bands (pY :: rest), band.holds floats y = true := by
  induction rest generalizing pY with
  | nil =>
    have hlast : Before floats none y := by
      refine ⟨hbelow, fun _ hn => ?_⟩
      cases hn
    exact ⟨_, List.mem_singleton_self _, (Band.holds_iff (by simp)).mpr ⟨h, hlast⟩⟩
  | cons next rest ih =>
    rw [List.forall_mem_cons] at hrest
    rcases lt_or_ge y next with hbefore | hafter
    · refine ⟨_, List.mem_cons_self, (Band.holds_iff ?_).mpr ⟨h, before_of_lt hrest.1 hbefore⟩⟩
      simpa using hrest.1
    · obtain ⟨band, hband, hholds⟩ := ih hrest.2 ((bandStart_le hrest.1).trans hafter)
      exact ⟨band, List.mem_cons_of_mem _ hband, hholds⟩

theorem pY_mem {ys : List ℚ} {band : Band} (h : band ∈ bands ys) : band.pY ∈ ys := by
  induction ys with
  | nil => cases h
  | cons pY rest ih =>
    rcases List.mem_cons.mp h with rfl | hrest
    · exact List.mem_cons_self
    · exact List.mem_cons_of_mem _ (ih hrest)

theorem pNextY_mem {ys : List ℚ} {band : Band} (h : band ∈ bands ys) {next : ℚ}
    (hnext : next ∈ band.pNextY) : next ∈ ys := by
  induction ys with
  | nil => cases h
  | cons pY rest ih =>
    rcases List.mem_cons.mp h with rfl | hrest
    · exact List.mem_cons_of_mem _ (List.mem_of_mem_head? hnext)
    · exact List.mem_cons_of_mem _ (ih hrest)

theorem head_le_of_mem {ys : List ℚ} (hsorted : ys.Pairwise (· ≤ ·)) {low n : ℚ}
    (hlow : low ∈ ys.head?) (hn : n ∈ ys) : low ≤ n := by
  obtain ⟨rest, rfl⟩ := List.head?_eq_some_iff.mp hlow
  rcases List.mem_cons.mp hn with rfl | hrest
  · exact le_rfl
  · exact (List.pairwise_cons.mp hsorted).1 n hrest

theorem bands_next {ys : List ℚ} (hys : ∀ p ∈ ys, floats.IsFloat p) {band : Band}
    (h : band ∈ bands ys) : ∀ n ∈ band.pNextY, floats.IsFloat n :=
  fun n hn => hys n (pNextY_mem h hn)

/-- A height is in at most one band if and only if it is not within twenty above a parcel other
than the first. -/
theorem bands_disjoint_iff {ys : List ℚ} (hys : ∀ p ∈ ys, floats.IsFloat p)
    (hsorted : ys.Pairwise (· ≤ ·)) :
    ((bands ys).Pairwise fun a b => ¬ (a.holds floats y = true ∧ b.holds floats y = true)) ↔
      ∀ pY ∈ ys.tail, ¬ (bandStart floats pY ≤ y ∧ y < pY) := by
  induction ys with
  | nil => simp [bands]
  | cons pY rest ih =>
    rw [List.pairwise_cons] at hsorted
    have hrest := (List.forall_mem_cons.mp hys).2
    cases rest with
    | nil => simp [bands]
    | cons next rest =>
      have hnext := hsorted.1 next List.mem_cons_self
      have hlater := (List.pairwise_cons.mp hsorted.2).1
      have hfloat := hys next (List.mem_cons_of_mem _ List.mem_cons_self)
      rw [bands, List.pairwise_cons, ih hrest hsorted.2, List.tail_cons, List.tail_cons,
        List.forall_mem_cons]
      refine ⟨fun ⟨hfirst, hlast⟩ => ⟨fun hover => ?_, hlast⟩,
        fun ⟨hover, hlast⟩ => ⟨fun band hband ⟨hin, hinLater⟩ => ?_, hlast⟩⟩
      · have hbefore := before_of_lt hfloat hover.2
        refine hfirst _ (List.mem_cons_self (l := bands rest)) ⟨?_, ?_⟩
        · refine (Band.holds_iff (bands_next hys List.mem_cons_self)).mpr ⟨?_, hbefore⟩
          exact (bandStart_mono (hys pY List.mem_cons_self) hnext).trans hover.1
        · refine (Band.holds_iff (bands_next hrest List.mem_cons_self)).mpr ⟨hover.1, ?_⟩
          exact hbefore.mono fun n hn => hlater n (List.mem_of_mem_head? hn)
      · have hbefore : y < next :=
          ((Band.holds_iff (bands_next hys List.mem_cons_self)).mp hin).2.2 next rfl
        have hstart := ((Band.holds_iff (bands_next hrest hband)).mp hinLater).1
        rcases List.mem_cons.mp (pY_mem hband) with hsame | hmem
        · exact hover ⟨hsame ▸ hstart, hbefore⟩
        · exact hlast _ hmem ⟨hstart, hbefore.trans_le (hlater _ hmem)⟩

/-! ## The first share of a band -/

theorem find?_narrow {α : Type} {items : List α} {p q : α → Bool} {a : α}
    (h : items.find? p = some a) (himp : ∀ b, q b = true → p b = true) (ha : q a = true) :
    items.find? q = some a := by
  obtain ⟨-, earlier, later, rfl, hearlier⟩ := List.find?_eq_some_iff_append.mp h
  refine List.find?_eq_some_iff_append.mpr ⟨ha, earlier, later, rfl, fun b hb => ?_⟩
  have hnot : p b = false := by simpa using hearlier b hb
  rw [Bool.not_eq_true']
  exact Bool.eq_false_iff.mpr fun hq => Bool.eq_false_iff.mp hnot (himp b hq)

theorem find?_either {α : Type} {items : List α} {p q : α → Bool} {a : α}
    (hp : items.find? p = some a) (hq : items.find? q = some a) :
    items.find? (fun b => p b || q b) = some a := by
  induction items with
  | nil => cases hp
  | cons b items ih =>
    rw [List.find?_cons] at hp hq ⊢
    have hpa : p a = true := by
      split at hp
      · rename_i hb
        exact Option.some.inj hp ▸ hb
      · exact List.find?_some hp
    have hqa : q a = true := by
      split at hq
      · rename_i hb
        exact Option.some.inj hq ▸ hb
      · exact List.find?_some hq
    cases hpb : p b with
    | true =>
      rw [hpb] at hp
      exact hp
    | false =>
      cases hqb : q b with
      | true =>
        rw [hqb] at hq
        exact hq
      | false =>
        rw [hpb] at hp
        rw [hqb] at hq
        exact ih hp hq

variable {height : Item → ℚ} {shares : List Item} {s : Item}

def shareIn (floats : FloatFormat) (height : Item → ℚ) (shares : List Item) (band : Band) :
    Option Item :=
  shares.find? fun s => band.holds floats (height s)

theorem shareIn_holds {band : Band} (h : shareIn floats height shares band = some s) :
    band.holds floats (height s) = true :=
  List.find?_some (p := fun s => band.holds floats (height s)) h

def SharedFirst (floats : FloatFormat) (height : Item → ℚ) (shares : List Item) (ys : List ℚ)
    (s : Item) : Prop :=
  ∃ before pY next rest, ys = before ++ pY :: next :: rest ∧
    shareIn floats height shares { pY := pY, pNextY := rest.head? } = some s ∧
    bandStart floats next ≤ height s ∧ height s < next

section Two

variable {pY next : ℚ} {after : Option ℚ} (hpY : floats.IsFloat pY) (hfloat : floats.IsFloat next)
  (hafterFloat : ∀ n ∈ after, floats.IsFloat n) (hnext : pY ≤ next) (hafter : ∀ n ∈ after, next ≤ n)

include hpY hfloat hafterFloat hnext hafter

theorem holds_or (y : ℚ) :
    (Band.holds floats { pY := pY, pNextY := some next } y ||
      Band.holds floats { pY := next, pNextY := after } y) =
        Band.holds floats { pY := pY, pNextY := after } y := by
  have hstep := bandStart_mono hpY hnext
  rw [Bool.eq_iff_iff, Bool.or_eq_true, Band.holds_iff (by simpa using hfloat),
    Band.holds_iff hafterFloat, Band.holds_iff hafterFloat]
  constructor
  · rintro (⟨hstart, hbefore⟩ | ⟨hstart, hbefore⟩)
    · exact ⟨hstart, hbefore.mono hafter⟩
    · exact ⟨hstep.trans hstart, hbefore⟩
  · rintro ⟨hstart, hbefore⟩
    rcases lt_or_ge y next with hlt | hge
    · exact .inl ⟨hstart, before_of_lt hfloat hlt⟩
    · exact .inr ⟨(bandStart_le hfloat).trans hge, hbefore⟩

theorem shareIn_both_iff :
    (shareIn floats height shares { pY := pY, pNextY := some next } = some s ∧
      shareIn floats height shares { pY := next, pNextY := after } = some s) ↔
    shareIn floats height shares { pY := pY, pNextY := after } = some s ∧
      bandStart floats next ≤ height s ∧ height s < next := by
  have hunion := holds_or hpY hfloat hafterFloat hnext hafter
  constructor
  · rintro ⟨hfirst, hsecond⟩
    have hholds := (Band.holds_iff (by simpa using hfloat)).mp (shareIn_holds hfirst)
    have hholdsNext := (Band.holds_iff hafterFloat).mp (shareIn_holds hsecond)
    refine ⟨?_, hholdsNext.1, hholds.2.2 next rfl⟩
    have heither := find?_either hfirst hsecond
    simp only [hunion] at heither
    exact heither
  · rintro ⟨hfirst, hstart, hlt⟩
    have hbefore := before_of_lt hfloat hlt
    refine ⟨find?_narrow hfirst (fun t ht => ?_) ?_, find?_narrow hfirst (fun t ht => ?_) ?_⟩
    · rw [← hunion, ht, Bool.true_or]
    · exact (Band.holds_iff (by simpa using hfloat)).mpr
        ⟨(bandStart_mono hpY hnext).trans hstart, hbefore⟩
    · rw [← hunion, ht, Bool.or_true]
    · exact (Band.holds_iff hafterFloat).mpr ⟨hstart, hbefore.mono hafter⟩

end Two

theorem SharedFirst.cons {ys : List ℚ} (h : SharedFirst floats height shares ys s) (pY : ℚ) :
    SharedFirst floats height shares (pY :: ys) s := by
  obtain ⟨before, previous, next, rest, rfl, hfirst⟩ := h
  exact ⟨pY :: before, previous, next, rest, rfl, hfirst⟩

theorem sharedFirst_of_two {pY : ℚ} {rest : List ℚ} (hys : ∀ p ∈ pY :: rest, floats.IsFloat p)
    (hsorted : (pY :: rest).Pairwise (· ≤ ·))
    (hfirst : shareIn floats height shares { pY := pY, pNextY := rest.head? } = some s)
    {band : Band} (hband : band ∈ bands rest)
    (hlast : shareIn floats height shares band = some s) :
    SharedFirst floats height shares (pY :: rest) s := by
  induction rest generalizing pY with
  | nil => cases hband
  | cons next rest ih =>
    rw [List.pairwise_cons] at hsorted
    have hnext := hsorted.1 next List.mem_cons_self
    have hlater := (List.pairwise_cons.mp hsorted.2).1
    have hafter : ∀ n ∈ rest.head?, next ≤ n := fun n hn => hlater n (List.mem_of_mem_head? hn)
    obtain ⟨hpYFloat, hrestFloat⟩ := List.forall_mem_cons.mp hys
    obtain ⟨hnextFloat, hlaterFloat⟩ := List.forall_mem_cons.mp hrestFloat
    have hafterFloat : ∀ n ∈ rest.head?, floats.IsFloat n :=
      fun n hn => hlaterFloat n (List.mem_of_mem_head? hn)
    rcases List.mem_cons.mp hband with rfl | hrest
    · exact ⟨[], pY, next, rest, rfl,
        (shareIn_both_iff hpYFloat hnextFloat hafterFloat hnext hafter).mp ⟨hfirst, hlast⟩⟩
    · have hbefore : Before floats (some next) (height s) :=
        ((Band.holds_iff (by simpa using hnextFloat)).mp (shareIn_holds hfirst)).2
      have hstart := ((Band.holds_iff (bands_next hlaterFloat hrest)).mp (shareIn_holds hlast)).1
      have hpY := hlater _ (pY_mem hrest)
      refine SharedFirst.cons (ih hrestFloat hsorted.2 ?_ hrest) pY
      refine find?_narrow (find?_either hfirst hlast) (fun t ht => ?_) ?_
      · -- the band of the next parcel lies in the two bands together
        obtain ⟨htStart, htBefore⟩ := (Band.holds_iff hafterFloat).mp ht
        rw [Bool.or_eq_true, Band.holds_iff (by simpa using hnextFloat),
          Band.holds_iff (bands_next hlaterFloat hrest)]
        have hstep := bandStart_mono hpYFloat hnext
        rcases lt_or_ge (height t) next with hlt | hge
        · exact .inl ⟨hstep.trans htStart, before_of_lt hnextFloat hlt⟩
        · refine .inr ⟨hstart.trans ((hbefore.2 next rfl).le.trans hge), htBefore.1, fun n hn => ?_⟩
          obtain ⟨after, hafterHead⟩ := Option.isSome_iff_exists.mp
            (List.isSome_head?.mpr (List.ne_nil_of_mem (pNextY_mem hrest hn)))
          exact (htBefore.2 after hafterHead).trans_le
            (head_le_of_mem (List.pairwise_cons.mp hsorted.2).2 hafterHead (pNextY_mem hrest hn))
      · refine (Band.holds_iff hafterFloat).mpr ⟨?_, hbefore.mono hafter⟩
        exact (bandStart_mono hnextFloat hpY).trans hstart

theorem bands_append (before ys : List ℚ) : ∃ earlier, bands (before ++ ys) = earlier ++ bands ys := by
  induction before with
  | nil => exact ⟨[], rfl⟩
  | cons pY before ih =>
    obtain ⟨earlier, hearlier⟩ := ih
    exact ⟨_ :: earlier, congrArg (List.cons _) hearlier⟩

/-- A share is the first of at most one band if and only if no two bands in a row share it. -/
theorem shareIn_once_iff {ys : List ℚ} (hys : ∀ p ∈ ys, floats.IsFloat p)
    (hsorted : ys.Pairwise (· ≤ ·)) :
    ((bands ys).Pairwise fun a b => ¬ (shareIn floats height shares a = some s ∧
      shareIn floats height shares b = some s)) ↔ ¬ SharedFirst floats height shares ys s := by
  constructor
  · rintro h ⟨before, pY, next, rest, rfl, hfirst⟩
    obtain ⟨-, hrows, -⟩ := List.pairwise_append.mp hsorted
    rw [List.pairwise_cons] at hrows
    have hrowFloats := (List.forall_mem_append.mp hys).2
    obtain ⟨hpY, hrest⟩ := List.forall_mem_cons.mp hrowFloats
    obtain ⟨hnext, hlater⟩ := List.forall_mem_cons.mp hrest
    obtain ⟨earlier, hearlier⟩ := bands_append before (pY :: next :: rest)
    rw [hearlier] at h
    obtain ⟨-, hpair, -⟩ := List.pairwise_append.mp h
    refine (List.pairwise_cons.mp hpair).1 _ List.mem_cons_self ((shareIn_both_iff hpY hnext
      (fun n hn => ?_) (hrows.1 next List.mem_cons_self) fun n hn => ?_).mpr hfirst)
    · exact hlater n (List.mem_of_mem_head? hn)
    · exact (List.pairwise_cons.mp hrows.2).1 n (List.mem_of_mem_head? hn)
  · intro hnone
    induction ys with
    | nil => exact .nil
    | cons pY rest ih =>
      refine List.pairwise_cons.mpr ⟨fun band hband ⟨hfirst, hlast⟩ => ?_, ?_⟩
      · exact hnone (sharedFirst_of_two hys hsorted hfirst hband hlast)
      · exact ih (List.forall_mem_cons.mp hys).2 (List.pairwise_cons.mp hsorted).2
          fun h => hnone (h.cons pY)

end LandRecords.Extract
