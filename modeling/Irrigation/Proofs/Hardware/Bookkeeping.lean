import Irrigation.Proofs.Hardware.Claims

/-!
# The books of a chip

A `Desk` is a chip with everybody who uses it: lines are requested and released by anyone, the chip
may be closed, and every output that was ever handed out may be driven. The deals that came about
are on record, the latest first. The chip's own account of its claims agrees with that record after
any row of uses, and each request and release is answered by it (`Desk.keeps_books`).
-/

namespace Irrigation

/-- What is done with a chip. Outputs are named by their place among those handed out; a drive of
one that there is not does nothing. -/
inductive ChipUse
  | request (who : String) (offset : Offset) (direction : Direction) (polarity : Polarity)
  | release (offsets : List Offset)
  | close
  | drive (i : Nat) (on : Bool)

/-- What came about between a chip and those who use it. -/
inductive Deal
  /-- A request succeeded. -/
  | lent (who : String) (offset : Offset)
  /-- A release succeeded. -/
  | returned (offsets : List Offset)
  | closed
  deriving DecidableEq

namespace Deal

/-- Whether a deal is about a line. -/
def names (n : Offset) : Deal → Bool
  | .lent _ m => m == n
  | .returned ms => ms.contains n
  | .closed => false

/-- The label under which a deal leaves its lines claimed. -/
def label? : Deal → Option String
  | .lent who _ => some (consumerLabel who)
  | _ => none

end Deal

/-- A chip, the outputs that it handed out, and the deals made on it, the latest first. -/
structure Desk where
  rig : Rig
  handed : List Output := []
  deals : List Deal := []

namespace Desk

/-- The desk after a use of the chip. -/
def next (d : Desk) : ChipUse → Desk
  | .request who offset direction polarity =>
    match d.rig.request who offset direction polarity with
    | (.ok o, rig) => ⟨rig, d.handed ++ [o], .lent who offset :: d.deals⟩
    | (.error _, rig) => { d with rig }
  | .release offsets =>
    match d.rig.release offsets with
    | (true, rig) => { d with rig, deals := .returned offsets :: d.deals }
    | (false, rig) => { d with rig }
  | .close => { d with rig := d.rig.close, deals := .closed :: d.deals }
  | .drive i on =>
    match d.handed[i]? with
    | some o =>
      { d with rig := (o.switch on d.rig).2, handed := d.handed.set i (o.switch on d.rig).1 }
    | none => d

/-- A desk with a chip that has just been opened, after some uses. -/
def after (path : String) (lines : Nat) (uses : List ChipUse) : Desk :=
  uses.foldl next { rig := Rig.openChip path lines }

/-- The last deal about a line. -/
def lastOn? (d : Desk) (n : Offset) : Option Deal := d.deals.find? (Deal.names n)

end Desk

/-! ## One request and one release -/

namespace Chip

variable {c : Chip} {n : Offset} {who : String}

theorem isClaimed_iff : c.isClaimed n ↔ n ∈ c.claims.map Prod.fst := by
  rw [isClaimed_eq_any, List.any_eq_true, List.mem_map]
  exact exists_congr fun held => and_congr_right fun _ => beq_iff_eq.trans eq_comm

/-- If no line is entered twice, the one who is found for a line is the only one entered for it. -/
theorem filter_claims (h : (c.claims.map Prod.fst).Nodup) (hwho : c.consumer? n = some who) :
    c.claims.filter (fun held => held.1 == n) = [(n, who)] := by
  unfold consumer? at hwho
  induction hc : c.claims generalizing c with
  | nil =>
    rw [hc] at hwho
    cases hwho
  | cons held rest ih =>
    obtain ⟨m, label⟩ := held
    rw [hc, List.lookup_cons] at hwho
    rw [hc, List.map_cons, List.nodup_cons] at h
    by_cases hm : n = m
    · subst hm
      rw [beq_self_eq_true] at hwho
      obtain rfl := Option.some.inj hwho
      have hrest : rest.filter (fun held => held.1 == n) = [] := by
        rw [List.filter_eq_nil_iff]
        intro held hheld heq
        exact h.1 (List.mem_map.mpr ⟨held, hheld, beq_iff_eq.mp heq⟩)
      rw [List.filter_cons_of_pos (by simp), hrest]
    · rw [beq_false_of_ne hm] at hwho
      rw [List.filter_cons_of_neg (by simpa using Ne.symm hm)]
      exact @ih { c with claims := rest } h.2 hwho rfl

end Chip

namespace Rig

/-- How a request is answered: the first thing that stands against it is the answer, and then it
leaves everything as it was; if nothing does, the line is had. -/
structure AnswersRequest (r : Rig) (who : String) (n : Offset) (d : Direction) (p : Polarity) :
    Prop where
  closed : r.chip.isOpen = false → r.request who n d p = (.error .chipClosed, r)
  outOfRange : r.chip.isOpen = true → r.chip.lines ≤ n.toNat →
    r.request who n d p = (.error (.outOfRange n), r)
  busy : r.chip.isOpen = true → n.toNat < r.chip.lines → r.chip.isClaimed n = true →
    r.request who n d p = (.error (.busy n), r)
  /-- The line is entered in the name of who asked for it. An output starts at its inactive level,
  an input is left at the level that it has; no other line changes. -/
  granted : r.chip.isOpen = true → n.toNat < r.chip.lines → r.chip.isClaimed n = false →
    ∃ r', r.request who n d p = (.ok ⟨n, d, p, false⟩, r') ∧ r'.chip.isOpen = true ∧
      (∀ m, r'.chip.consumer? m = if m = n then some (consumerLabel who) else r.chip.consumer? m) ∧
      ∀ m, r'.chip.level? m =
        if m = n ∧ d = .output then some (p.level false) else r.chip.level? m

/-- How a release is answered: all lines are given back, or nothing is done. -/
structure AnswersRelease (r : Rig) (offsets : List Offset) : Prop where
  freed : offsets ≠ [] → (∀ n ∈ offsets, r.chip.isClaimed n = true) →
    ∃ r', r.release offsets = (true, r') ∧ r'.chip.isOpen = r.chip.isOpen ∧
      (∀ m, r'.chip.consumer? m = if m ∈ offsets then none else r.chip.consumer? m) ∧
      ∀ m, r'.chip.level? m = r.chip.level? m
  refused : (offsets = [] ∨ ∃ n ∈ offsets, r.chip.isClaimed n = false) →
    r.release offsets = (false, r)

variable {r r' : Rig} {n : Offset} {offsets : List Offset}

theorem hasLine_iff : r.chip.hasLine n = true ↔ n.toNat < r.chip.lines := decide_eq_true_iff

theorem request_refused {e : LineError} (h : r.chip.refusal? n = some e) (who : String)
    (d : Direction) (p : Polarity) : r.request who n d p = (.error e, r) := by
  simp only [request, h]

/-- What becomes of a request that nothing stands against. -/
theorem request_granted (h : r.chip.refusal? n = none) (who : String) (d : Direction)
    (p : Polarity) : ∃ r', r.request who n d p = (.ok ⟨n, d, p, false⟩, r') ∧
      r'.faults = r.faults ∧ r'.chip.isOpen = r.chip.isOpen ∧ r'.chip.lines = r.chip.lines ∧
      r'.chip.claims = (n, consumerLabel who) :: r.chip.claims ∧
      ∀ m, r'.chip.level? m =
        if m = n ∧ d = .output then some (p.level false) else r.chip.level? m := by
  have hline := ((Chip.refusal?_eq_none _ _).mp h).2.1
  simp only [request, h]
  cases d with
  | input =>
    exact ⟨_, rfl, rfl, rfl, rfl, rfl, fun m => by simp only [reduceCtorEq, and_false]; rfl⟩
  | output =>
    refine ⟨_, rfl, rfl, rfl, rfl, rfl, fun m => ?_⟩
    simp only [and_true]
    exact Chip.level?_setLevel (r.chip.claim n who) n m (p.level false) hline

theorem answersRequest (r : Rig) (who : String) (n : Offset) (d : Direction) (p : Polarity) :
    r.AnswersRequest who n d p := by
  refine ⟨fun hclosed => ?_, fun hopen hline => ?_, fun hopen hline hclaimed => ?_,
    fun hopen hline hfree => ?_⟩
  · exact request_refused (by simp [Chip.refusal?, hclosed]) ..
  · have hnone : r.chip.hasLine n = false := by
      rw [Bool.eq_false_iff, ne_eq, hasLine_iff]
      exact Nat.not_lt.mpr hline
    exact request_refused (by simp [Chip.refusal?, hopen, hnone]) ..
  · exact request_refused (by simp [Chip.refusal?, hopen, hasLine_iff.mpr hline, hclaimed]) ..
  · have hnothing : r.chip.refusal? n = none :=
      (Chip.refusal?_eq_none _ _).mpr ⟨hopen, hasLine_iff.mpr hline, hfree⟩
    obtain ⟨r', hr', -, hopen', -, hclaims, hlevel⟩ := request_granted hnothing who d p
    refine ⟨r', hr', hopen'.trans hopen, fun m => ?_, hlevel⟩
    rw [← Chip.consumer?_claim r.chip n m who]
    simp only [Chip.consumer?, hclaims]
    rfl

theorem release_granted (h : r.faults.refusesRelease = false)
    (hcan : r.chip.canRelease offsets = true) :
    ∃ r', r.release offsets = (true, r') ∧ r'.faults = r.faults ∧
      r'.chip = r.chip.unclaim offsets := by
  simp only [release, h, hcan, Bool.not_true, Bool.or_self, Bool.false_eq_true, if_false]
  exact ⟨_, rfl, rfl, rfl⟩

theorem canRelease_iff : r.chip.canRelease offsets = true ↔
    offsets ≠ [] ∧ ∀ n ∈ offsets, r.chip.isClaimed n = true := by
  simp [Chip.canRelease]

theorem answersRelease (h : r.faults.refusesRelease = false) (offsets : List Offset) :
    r.AnswersRelease offsets := by
  refine ⟨fun hsome hheld => ?_, fun hnot => ?_⟩
  · obtain ⟨r', hr', -, hchip⟩ := release_granted h (canRelease_iff.mpr ⟨hsome, hheld⟩)
    refine ⟨r', hr', ?_⟩
    rw [hchip]
    exact ⟨rfl, Chip.consumer?_unclaim _ _, fun _ => rfl⟩
  · have hcan : r.chip.canRelease offsets = false := by
      rw [Bool.eq_false_iff, ne_eq, canRelease_iff]
      rintro ⟨hsome, hheld⟩
      rcases hnot with hnil | ⟨n, hn, hfree⟩
      · exact hsome hnil
      · exact Bool.false_ne_true (hfree.symm.trans (hheld n hn))
    simp only [release, hcan, Bool.not_false, Bool.or_true, if_true]

end Rig

namespace Desk

variable {count : Nat} {d : Desk} {n : Offset}

/-! ## The invariant -/

/-- The chip's account of its claims agrees with the record of the deals. -/
structure Balanced (count : Nat) (d : Desk) : Prop where
  lines : d.rig.chip.lines = count
  obeys : d.rig.faults.refusesRelease = false
  isOpen : d.rig.chip.isOpen = true ↔ .closed ∉ d.deals
  account : d.rig.chip.isOpen = true →
    ∀ n, d.rig.chip.consumer? n = (d.lastOn? n).bind Deal.label?
  cleared : d.rig.chip.isOpen = false → d.rig.chip.claims = []
  once : (d.rig.chip.claims.map Prod.fst).Nodup
  below : ∀ n ∈ d.rig.chip.claims.map Prod.fst, n.toNat < count
  handed : ∀ o ∈ d.handed, o.offset.toNat < count

theorem balanced_open (path : String) (count : Nat) :
    Balanced count { rig := Rig.openChip path count } where
  lines := rfl
  obeys := rfl
  isOpen := iff_of_true rfl List.not_mem_nil
  account _ _ := rfl
  cleared := nofun
  once := List.nodup_nil
  below := nofun
  handed := nofun

/-- What does not touch the claims, nor closes the chip, keeps the balance. -/
theorem Balanced.of_claims (h : d.Balanced count) {rig : Rig} {handed : List Output}
    (hfaults : rig.faults = d.rig.faults) (hopen : rig.chip.isOpen = d.rig.chip.isOpen)
    (hlines : rig.chip.lines = d.rig.chip.lines) (hclaims : rig.chip.claims = d.rig.chip.claims)
    (hhanded : ∀ o ∈ handed, o.offset.toNat < count) : Balanced count ⟨rig, handed, d.deals⟩ where
  lines := hlines.trans h.lines
  obeys := hfaults ▸ h.obeys
  isOpen := by rw [hopen]; exact h.isOpen
  account := by
    intro ho n
    simp only [Chip.consumer?, hclaims]
    exact h.account (hopen ▸ ho) n
  cleared ho := hclaims.trans (h.cleared (hopen ▸ ho))
  once := hclaims ▸ h.once
  below := by rw [hclaims]; exact h.below
  handed := hhanded

theorem Balanced.request (h : d.Balanced count) (who : String) (n : Offset) (dir : Direction)
    (p : Polarity) : (d.next (.request who n dir p)).Balanced count := by
  cases hrefusal : d.rig.chip.refusal? n with
  | some e =>
    simp only [next, Rig.request_refused hrefusal]
    exact h
  | none =>
    obtain ⟨ho, hline, hfree⟩ := (Chip.refusal?_eq_none _ _).mp hrefusal
    obtain ⟨r', hr', hfaults, hopen, hlines, hclaims, -⟩ := Rig.request_granted hrefusal who dir p
    rw [Rig.hasLine_iff, h.lines] at hline
    simp only [next, hr']
    refine ⟨hlines.trans h.lines, hfaults ▸ h.obeys, ?_, fun _ m => ?_, fun hclosed => ?_, ?_, ?_,
      fun o ho => ?_⟩
    · rw [hopen, h.isOpen]
      simp
    · have hclaimed := Chip.consumer?_claim d.rig.chip n m who
      rw [h.account ho m] at hclaimed
      simp only [Chip.consumer?, hclaims]
      refine hclaimed.trans ?_
      by_cases hm : m = n
      · subst hm
        simp [lastOn?, Deal.names, Deal.label?]
      · simp [lastOn?, Deal.names, hm, Ne.symm hm]
    · exact absurd (hclosed.symm.trans (hopen.trans ho)) Bool.false_ne_true
    · rw [hclaims, List.map_cons, List.nodup_cons]
      exact ⟨fun hmem => by simp [Chip.isClaimed_iff.mpr hmem] at hfree, h.once⟩
    · rw [hclaims, List.map_cons]
      exact List.forall_mem_cons.mpr ⟨hline, h.below⟩
    · rcases List.mem_append.mp ho with ho | ho
      · exact h.handed o ho
      · rw [List.mem_singleton.mp ho]
        exact hline

theorem Balanced.release (h : d.Balanced count) (offsets : List Offset) :
    (d.next (.release offsets)).Balanced count := by
  cases hcan : d.rig.chip.canRelease offsets with
  | false =>
    have hrefused : d.rig.release offsets = (false, d.rig) := by simp [Rig.release, hcan]
    simp only [next, hrefused]
    exact h
  | true =>
    obtain ⟨r', hr', hfaults, hchip⟩ := Rig.release_granted h.obeys hcan
    have hsub : (r'.chip.claims.map Prod.fst).Sublist (d.rig.chip.claims.map Prod.fst) := by
      rw [hchip]
      exact List.filter_sublist.map _
    simp only [next, hr']
    refine ⟨hchip ▸ h.lines, hfaults ▸ h.obeys, ?_, fun ho m => ?_, fun hclosed => ?_,
      h.once.sublist hsub, fun m hm => h.below m (hsub.subset hm), h.handed⟩
    · rw [hchip, Chip.isOpen_unclaim, h.isOpen]
      simp
    · rw [hchip, Chip.isOpen_unclaim] at ho
      rw [hchip, Chip.consumer?_unclaim, h.account ho m]
      by_cases hm : m ∈ offsets
      · simp [lastOn?, Deal.names, Deal.label?, hm]
      · simp [lastOn?, Deal.names, hm]
    · rw [hchip, Chip.isOpen_unclaim] at hclosed
      rw [hchip, Chip.unclaim, h.cleared hclosed]
      rfl

theorem Balanced.close (h : d.Balanced count) : (d.next .close).Balanced count where
  lines := h.lines
  obeys := h.obeys
  isOpen := iff_of_false Bool.false_ne_true (by simp [next])
  account := nofun
  cleared _ := rfl
  once := List.nodup_nil
  below := nofun
  handed := h.handed

/-- What a drive does to a rig: only the level of its own line may change. -/
theorem switch_rig (o : Output) (on : Bool) (r : Rig) : (o.switch on r).2.faults = r.faults ∧
    (o.switch on r).2.chip.isOpen = r.chip.isOpen ∧
    (o.switch on r).2.chip.lines = r.chip.lines ∧
    (o.switch on r).2.chip.claims = r.chip.claims := by
  unfold Output.switch Output.drive
  split <;> exact ⟨rfl, rfl, rfl, rfl⟩

theorem offset_switch (o : Output) (on : Bool) (r : Rig) : (o.switch on r).1.offset = o.offset := by
  unfold Output.switch Output.drive
  split <;> rfl

theorem Balanced.drive (h : d.Balanced count) (i : Nat) (on : Bool) :
    (d.next (.drive i on)).Balanced count := by
  simp only [next]
  cases hi : d.handed[i]? with
  | none => exact h
  | some o =>
    obtain ⟨hfaults, hopen, hlines, hclaims⟩ := switch_rig o on d.rig
    refine h.of_claims hfaults hopen hlines hclaims fun o' ho' => ?_
    rcases List.mem_or_eq_of_mem_set ho' with ho' | rfl
    · exact h.handed o' ho'
    · rw [offset_switch]
      exact h.handed o (List.mem_of_getElem? hi)

theorem Balanced.next (h : d.Balanced count) (u : ChipUse) : (d.next u).Balanced count := by
  cases u with
  | request who n dir p => exact h.request who n dir p
  | release offsets => exact h.release offsets
  | close => exact h.close
  | drive i on => exact h.drive i on

theorem balanced_after (path : String) (count : Nat) (uses : List ChipUse) :
    (after path count uses).Balanced count := by
  have hopened := balanced_open path count
  unfold after
  generalize ({ rig := Rig.openChip path count } : Desk) = d at hopened
  induction uses generalizing d with
  | nil => exact hopened
  | cons u rest ih => exact ih _ (hopened.next u)

/-! ## The books -/

/-- A deal that is about a line and leaves it claimed is a request for it. -/
theorem lastOn?_bind {label : String} (h : (d.lastOn? n).bind Deal.label? = some label) :
    ∃ who, d.lastOn? n = some (.lent who n) ∧ label = consumerLabel who := by
  obtain ⟨deal, hdeal, hlabel⟩ := Option.bind_eq_some_iff.mp h
  have hnames : deal.names n = true := List.find?_some hdeal
  cases deal with
  | lent who m =>
    obtain rfl := beq_iff_eq.mp hnames
    exact ⟨who, hdeal, (Option.some.inj hlabel).symm⟩
  | returned ms => cases hlabel
  | closed => cases hlabel

/-- The books of a chip with so many lines are in order. -/
structure KeepsBooks (count : Nat) (d : Desk) : Prop where
  isOpen : d.rig.chip.isOpen = true ↔ .closed ∉ d.deals
  /-- A line is claimed exactly if the chip was not closed, and the last deal about the line was a
  request. -/
  claimed : ∀ n, d.rig.chip.isClaimed n = true ↔
    .closed ∉ d.deals ∧ ∃ who, d.lastOn? n = some (.lent who n)
  /-- The chip has each line that is claimed. -/
  below : ∀ n, d.rig.chip.isClaimed n = true → n.toNat < count
  /-- One consumer is entered for a line that is claimed: the one of that request. -/
  consumer : .closed ∉ d.deals → ∀ n who, d.lastOn? n = some (.lent who n) →
    d.rig.chip.claims.filter (fun held => held.1 == n) = [(n, consumerLabel who)]
  hasLines : d.rig.chip.lines = count
  request : ∀ who n dir p, d.rig.AnswersRequest who n dir p
  release : ∀ offsets, d.rig.AnswersRelease offsets
  /-- A close frees all lines and changes no level. -/
  close : ∀ n, (d.next .close).rig.chip.isClaimed n = false ∧
    (d.next .close).rig.chip.level? n = d.rig.chip.level? n
  /-- A drive changes no claim, and no level but that of its own line. -/
  drive : ∀ i on o, d.handed[i]? = some o → ∀ n,
    (d.next (.drive i on)).rig.chip.consumer? n = d.rig.chip.consumer? n ∧
    (d.next (.drive i on)).rig.chip.level? n =
      if n = o.offset ∧ o.direction = .output then some (o.polarity.level on)
      else d.rig.chip.level? n

theorem Balanced.level_drive (h : d.Balanced count) {i : Nat} {o : Output} (on : Bool)
    (hi : d.handed[i]? = some o) (n : Offset) : (o.switch on d.rig).2.chip.level? n =
      if n = o.offset ∧ o.direction = .output then some (o.polarity.level on)
      else d.rig.chip.level? n := by
  cases hd : o.direction with
  | input =>
    simp only [Output.switch, Output.drive, hd, reduceCtorEq, and_false, if_false]
    rfl
  | output =>
    have hline : d.rig.chip.hasLine o.offset = true := by
      rw [Rig.hasLine_iff, h.lines]
      exact h.handed o (List.mem_of_getElem? hi)
    rw [Rig.switch_of_output hd]
    simp only [and_true]
    exact Chip.level?_setLevel d.rig.chip o.offset n (o.polarity.level on) hline

/-- **The books of a chip are in order** after any uses of it, by anyone. -/
theorem keeps_books (path : String) (count : Nat) (uses : List ChipUse) :
    (after path count uses).KeepsBooks count := by
  have h := balanced_after path count uses
  generalize after path count uses = d at h
  refine ⟨h.isOpen, fun n => ?_, fun n hn => h.below n (Chip.isClaimed_iff.mp hn),
    fun hopen n who hlast => ?_, h.lines, fun who n dir p => d.rig.answersRequest who n dir p,
    Rig.answersRelease h.obeys, fun n => ⟨rfl, rfl⟩, fun i on o hi n => ?_⟩
  · constructor
    · intro hn
      have hopen : d.rig.chip.isOpen = true := by
        rw [← Bool.not_eq_false]
        intro hclosed
        rw [Chip.isClaimed_iff, h.cleared hclosed] at hn
        exact List.not_mem_nil hn
      obtain ⟨label, hlabel⟩ := Option.isSome_iff_exists.mp hn
      rw [h.account hopen] at hlabel
      obtain ⟨who, hwho, -⟩ := lastOn?_bind hlabel
      exact ⟨h.isOpen.mp hopen, who, hwho⟩
    · rintro ⟨hopen, who, hwho⟩
      rw [Chip.isClaimed, h.account (h.isOpen.mpr hopen), hwho]
      rfl
  · refine Chip.filter_claims h.once ?_
    rw [h.account (h.isOpen.mpr hopen), hlast]
    rfl
  · simp only [next, hi]
    exact ⟨Rig.consumer?_drive o on (record d.rig (.driven o.offset on)) n, h.level_drive on hi n⟩

end Desk

end Irrigation
