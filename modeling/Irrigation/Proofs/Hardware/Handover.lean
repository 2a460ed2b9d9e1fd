import Irrigation.Proofs.Hardware.Rebinding
import Mathlib.Data.List.Basic
import Mathlib.Logic.Function.Basic

/-!
# The order of a move

What a controller has to do with a board is a list of dealings: outputs that are switched, lines
that are asked for and given back, with what the board answered. `Witnessed` is a board with the
list of all dealings so far, and watching a board changes nothing (`Witnessed.carries_board`).

The dealings of a move are the same for every board, but for its answers (`Controller.Course`):
the roles that move let go of what they hold, one after the other; then their targets are asked
for, up to the first that is refused; and if one is, what was granted is given back, and then each
role asks for the line it had. The main result is `Controller.hands_over`.
-/

namespace Irrigation

/-- Something that a controller has to do with a board. -/
inductive Dealing
  /-- The output of a line is switched. -/
  | switched (line : Offset) (on : Bool)
  /-- Lines are given back. -/
  | released (lines : List Offset) (accepted : Bool)
  /-- A line is asked for. -/
  | requested (who : String) (line : Offset) (direction : Direction) (polarity : Polarity)
      (granted : Bool)
  deriving DecidableEq, Repr

/-- A board, and all dealings with it. -/
structure Witnessed (σ : Type) where
  board : σ
  dealings : List Dealing := []

namespace Witnessed

variable {σ : Type} [Board σ]

/-- The dealing that a journal entry tells of. -/
def told : Effect → List Dealing
  | .driven line on => [.switched line on]
  | _ => []

instance : Journaling (Witnessed σ) :=
  ⟨fun w e => ⟨record w.board e, w.dealings ++ told e⟩⟩

instance : Lines (Witnessed σ) where
  write w line up := (Lines.write w.board line up).map id fun board => ⟨board, w.dealings⟩

instance : Board (Witnessed σ) where
  request w who line d p :=
    let answer := Board.request w.board who line d p
    (answer.1, ⟨answer.2, w.dealings ++ [.requested who line d p answer.1.toBool]⟩)
  release w lines :=
    let answer := Board.release w.board lines
    (answer.1, ⟨answer.2, w.dealings ++ [.released lines answer.1]⟩)

/-- Watching a board changes nothing. -/
theorem carries_board : Carries (Witnessed.board : Witnessed σ → σ) where
  record := fun _ _ => rfl
  write := fun _ _ _ => rfl
  request := fun _ _ _ _ _ => rfl
  release := fun _ _ => rfl

variable (w : Witnessed σ)

@[simp] theorem dealings_log (l : Level) (text : String) :
    (Irrigation.log l text w).dealings = w.dealings := List.append_nil _

@[simp] theorem dealings_report (l : Level) (message : String) :
    (Controller.report l message w).dealings = w.dealings :=
  (List.append_nil _).trans (List.append_nil _)

@[simp] theorem dealings_drive (o : Output) (on : Bool) :
    (o.drive on w).2.dealings = w.dealings := by
  unfold Output.drive
  cases o.direction with
  | input => exact dealings_log ..
  | output =>
    rcases hw : Lines.write w o.offset (o.polarity.level on) with ⟨written, w'⟩
    have hsame : w'.dealings = w.dealings := by rw [← (Prod.mk.inj hw).2]
    cases written with
    | true => exact hsame
    | false => exact (dealings_log ..).trans hsame

@[simp] theorem dealings_switch (o : Output) (on : Bool) :
    (o.switch on w).2.dealings = w.dealings ++ [.switched o.offset on] := by
  rw [Output.switch, dealings_drive]
  rfl

@[simp] theorem dealings_release (lines : List Offset) : (Board.release w lines).2.dealings =
    w.dealings ++ [.released lines (Board.release w lines).1] := rfl

@[simp] theorem dealings_requestPin (pin : Pin) :
    (Controller.requestPin pin w).2.dealings = w.dealings ++
      [.requested Wiring.consumer pin.offset .output pin.polarity
        (Controller.requestPin pin w).1.toBool] := rfl

end Witnessed

/-! ## What is said in turn -/

section InTurn

variable {α : Type}

/-- What some roles have to say, one after the other. -/
def inTurn (roles : List Role) (say : Role → List α) : List (Role × α) :=
  roles.flatMap fun r => (say r).map fun a => (r, a)

@[simp] theorem inTurn_cons (r : Role) (roles : List Role) (say : Role → List α) :
    inTurn (r :: roles) say = (say r).map (fun a => (r, a)) ++ inTurn roles say := rfl

theorem map_snd_inTurn (roles : List Role) (say : Role → List α) :
    (inTurn roles say).map Prod.snd = roles.flatMap say := by
  induction roles with
  | nil => rfl
  | cons r rest ih => simp [ih, Function.comp_def]

theorem fst_mem_of_mem_inTurn {roles : List Role} {say : Role → List α} {a : Role × α}
    (h : a ∈ inTurn roles say) : a.1 ∈ roles := by
  obtain ⟨r, hr, ha⟩ := List.mem_flatMap.mp h
  obtain ⟨-, -, rfl⟩ := List.mem_map.mp ha
  exact hr

/-- Who speaks first can be given an answer that the others do not depend on. -/
theorem flatMap_update {r : Role} {rest : List Role} (h : r ∉ rest) (answer : Bool)
    (answers : Role → Bool) (say : Bool → Role → List α) :
    (r :: rest).flatMap (fun r' => say (Function.update answers r answer r') r') =
      say answer r ++ rest.flatMap fun r' => say (answers r') r' := by
  rw [List.flatMap_cons, Function.update_self]
  refine congrArg _ (List.flatMap_congr fun r' hr' => ?_)
  rw [Function.update_of_ne (Controller.ne_of_mem h hr')]

end InTurn

namespace Controller

variable {σ : Type} [Board σ] {c : Controller} {role : Role} {w : Witnessed σ}

/-! ## The phases -/

/-- A role that holds an output switches it off, and gives back its line at once. -/
def lettingGo (c : Controller) (accepted : Bool) (role : Role) : List Dealing :=
  match (c.slot role).output with
  | none => []
  | some o => [.switched o.offset false, .released [c.line role] accepted]

/-- A line is asked for in the program's name. -/
def asking (pin : Pin) (granted : Bool) : List Dealing :=
  [.requested Wiring.consumer pin.offset .output pin.polarity granted]

/-- A line that was granted in vain is given back. -/
def returning (target : Role → Offset) (accepted : Bool) (role : Role) : List Dealing :=
  [.released [target role] accepted]

theorem dealings_unbind (c : Controller) (role : Role) (w : Witnessed σ) :
    ∃ accepted, (c.unbind role w).2.dealings = w.dealings ++ c.lettingGo accepted role := by
  unfold unbind lettingGo
  cases (c.slot role).output with
  | none => exact ⟨true, (List.append_nil _).symm⟩
  | some o =>
    refine ⟨(Board.release (o.switch false w).2 [c.line role]).1, ?_⟩
    have hreleased := Witnessed.dealings_release (o.switch false w).2 [c.line role]
    rw [Witnessed.dealings_switch, List.append_assoc] at hreleased
    rw [line] at hreleased ⊢
    rcases hr : Board.release (o.switch false w).2 [(c.slot role).offset] with ⟨_ | _, w'⟩ <;>
      simp only [hr] at hreleased ⊢
    · exact (Witnessed.dealings_report ..).trans hreleased
    · exact hreleased

theorem lettingGo_drop (hne : role' ≠ role) (accepted : Bool) :
    (c.drop role).lettingGo accepted role' = c.lettingGo accepted role' := by
  rw [lettingGo, lettingGo, line, line, slot_drop, if_neg hne]

theorem dealings_unbindAll {roles : List Role} (hroles : roles.Nodup) :
    ∀ (c : Controller) (w : Witnessed σ), ∃ accepted : Role → Bool,
      (c.unbindAll roles w).2.dealings =
        w.dealings ++ roles.flatMap fun r => c.lettingGo (accepted r) r := by
  induction roles with
  | nil => exact fun _ _ => ⟨fun _ => true, (List.append_nil _).symm⟩
  | cons first rest ih =>
    intro c w
    obtain ⟨hfirst, hrest⟩ := List.nodup_cons.mp hroles
    obtain ⟨answer, hunbind⟩ := dealings_unbind c first w
    obtain ⟨answers, hall⟩ := ih hrest (c.unbind first w).1 (c.unbind first w).2
    refine ⟨Function.update answers first answer, ?_⟩
    rw [flatMap_update hfirst answer answers c.lettingGo, unbindAll]
    simp only [hall, hunbind, List.append_assoc]
    rw [fst_unbind]
    congr 2
    exact List.flatMap_congr fun r hr => lettingGo_drop (ne_of_mem hfirst hr) _

/-- The targets are asked for one after the other, up to the first that is refused. -/
theorem dealings_acquire (pin : Role → Pin) (roles : List Role) :
    ∀ w : Witnessed σ, (acquire pin roles w).2.2.dealings = w.dealings ++
      ((((acquire pin roles w).1.map Prod.fst).flatMap fun r => asking (pin r) true) ++
        ((acquire pin roles w).2.1.map Prod.fst).toList.flatMap fun r => asking (pin r) false) := by
  induction roles with
  | nil => exact fun _ => (List.append_nil _).symm
  | cons first rest ih =>
    intro w
    have hasked := Witnessed.dealings_requestPin w (pin first)
    unfold acquire
    rcases hq : requestPin (pin first) w with ⟨e | o, w₁⟩ <;> simp only [hq] at hasked ⊢
    · exact hasked
    · rw [ih w₁, hasked, List.map_cons, List.flatMap_cons, asking]
      simp only [List.append_assoc]
      rfl

/-- What is granted comes first among the roles, and all of them are unless one is refused. -/
theorem acquire_upTo (pin : Role → Pin) (roles : List Role) :
    ∀ s : σ, ((acquire pin roles s).2.1 = none → (acquire pin roles s).1.map Prod.fst = roles) ∧
      ∀ r e, (acquire pin roles s).2.1 = some (r, e) →
        ∃ rest, roles = (acquire pin roles s).1.map Prod.fst ++ r :: rest := by
  induction roles with
  | nil => exact fun _ => ⟨fun _ => rfl, fun _ _ h => by cases h⟩
  | cons first rest ih =>
    intro s
    unfold acquire
    rcases requestPin (pin first) s with ⟨e | o, s₁⟩
    · refine ⟨fun h => (by cases h), fun r e' h => ?_⟩
      obtain ⟨rfl, -⟩ := Prod.mk.inj (Option.some.inj h)
      exact ⟨rest, rfl⟩
    · obtain ⟨hall, hupTo⟩ := ih s₁
      refine ⟨fun h => ?_, fun r e h => ?_⟩
      · rw [List.map_cons, hall h]
      · obtain ⟨later, hlater⟩ := hupTo r e h
        refine ⟨later, ?_⟩
        rw [List.map_cons, List.cons_append, ← hlater]

theorem dealings_settle (acquired : List (Role × Output)) (target : Role → Offset) :
    ∀ (c : Controller) (w : Witnessed σ), (c.settle acquired target w).2.dealings = w.dealings := by
  induction acquired with
  | nil => exact fun _ _ => rfl
  | cons first rest ih => exact fun c w => (ih ..).trans (Witnessed.dealings_log ..)

/-- A role for which nothing was acquired stays as it is. -/
theorem slot_settle_of_notMem {acquired : List (Role × Output)} (target : Role → Offset)
    (h : role ∉ acquired.map Prod.fst) :
    ∀ (c : Controller) (s : σ), (c.settle acquired target s).1.slot role = c.slot role := by
  induction acquired with
  | nil => exact fun _ _ => rfl
  | cons first rest ih =>
    intro c s
    rw [List.map_cons, List.mem_cons, not_or] at h
    rw [settle, ih h.2, slot_modify_ne h.1]

/-- A role for which a line was acquired is bound on its target. -/
theorem settled {acquired : List (Role × Output)} (target : Role → Offset)
    (h : role ∈ acquired.map Prod.fst) : ∀ (c : Controller) (s : σ),
      (c.settle acquired target s).1.line role = target role ∧
        ((c.settle acquired target s).1.slot role).isBound := by
  induction acquired with
  | nil => cases h
  | cons first rest ih =>
    intro c s
    rw [settle]
    by_cases hrest : role ∈ rest.map Prod.fst
    · exact ih hrest ..
    · obtain rfl : role = first.1 := (List.mem_cons.mp h).resolve_right hrest
      rw [line, slot_settle_of_notMem target hrest, slot_modify, if_pos rfl]
      exact ⟨rfl, rfl⟩

/-- What was granted in vain is given back. -/
theorem dealings_handBack {acquired : List (Role × Output)}
    (hroles : (acquired.map Prod.fst).Nodup) (target : Role → Offset) :
    ∀ w : Witnessed σ, ∃ accepted : Role → Bool, (handBack acquired target w).dealings =
      w.dealings ++ (acquired.map Prod.fst).flatMap fun r => returning target (accepted r) r := by
  induction acquired with
  | nil => exact fun _ => ⟨fun _ => true, (List.append_nil _).symm⟩
  | cons first rest ih =>
    intro w
    obtain ⟨hfirst, hrest⟩ := List.nodup_cons.mp hroles
    obtain ⟨answers, hall⟩ := ih hrest (Board.release w [target first.1]).2
    refine ⟨Function.update answers first.1 (Board.release w [target first.1]).1, ?_⟩
    rw [List.map_cons, flatMap_update hfirst _ answers (returning target), handBack, hall,
      Witnessed.dealings_release, List.append_assoc]
    rfl

/-- A role that is not put back stays as it is. -/
theorem slot_restore_of_notMem {roles : List Role} (h : role ∉ roles) :
    ∀ (c : Controller) (s : σ), (c.restore roles s).1.slot role = c.slot role := by
  induction roles with
  | nil => exact fun _ _ => rfl
  | cons first rest ih =>
    intro c s
    rw [List.mem_cons, not_or] at h
    unfold restore
    simp only
    rcases requestPin ⟨(c.slot first).offset, (c.slot first).polarity⟩ s with ⟨e | o, s₁⟩
    · exact ih h.2 ..
    · exact (ih h.2 ..).trans (slot_modify_ne h.1)

/-- Each of the roles asks for the line it had, and is bound then if it gets it. -/
theorem dealings_restore {roles : List Role} (hroles : roles.Nodup) :
    ∀ {c : Controller} (w : Witnessed σ), (∀ r ∈ roles, (c.slot r).output = none) →
      (c.restore roles w).2.dealings = w.dealings ++ roles.flatMap fun r =>
        asking ⟨c.line r, (c.slot r).polarity⟩ ((c.restore roles w).1.slot r).isBound := by
  induction roles with
  | nil => exact fun _ _ => (List.append_nil _).symm
  | cons first rest ih =>
    intro c w hnone
    obtain ⟨hfirst, hrest⟩ := List.nodup_cons.mp hroles
    have hasked := Witnessed.dealings_requestPin w ⟨(c.slot first).offset, (c.slot first).polarity⟩
    rw [List.flatMap_cons]
    unfold restore
    simp only
    rcases hq : requestPin ⟨(c.slot first).offset, (c.slot first).polarity⟩ w with ⟨e | o, w₁⟩ <;>
      simp only [hq] at hasked ⊢
    · have hall := ih hrest (report .error
        s!"{first.label} left unbound, line {(c.slot first).offset} unavailable: {e.message}" w₁)
        fun r hr => hnone r (.tail _ hr)
      rw [hall, Witnessed.dealings_report, hasked, slot_restore_of_notMem hfirst, Slot.isBound,
        hnone first (.head _), List.append_assoc]
      rfl
    · have hslot : ∀ r ∈ rest, (c.bind first o).slot r = c.slot r := fun r hr =>
        slot_modify_ne (ne_of_mem hfirst hr)
      have hall := ih hrest (c := c.bind first o)
        (log .info s!"Hardware: {first.label} restored on line {(c.slot first).offset}" w₁)
        fun r hr => by rw [hslot r hr, hnone r (.tail _ hr)]
      rw [hall, Witnessed.dealings_log, hasked, slot_restore_of_notMem hfirst, bind, slot_modify,
        if_pos rfl, List.append_assoc]
      refine congrArg (w.dealings ++ ·) (congrArg _ (List.flatMap_congr fun r hr => ?_))
      rw [← bind, line, line, hslot r hr]

/-! ## The course of a move -/

/-- What is left open by the roles that move: what the board answers. -/
structure Course where
  /-- Whether it accepts the line that a role gives up. -/
  accepted : Role → Bool
  /-- The roles whose targets are granted. -/
  granted : List Role
  /-- The role whose target is refused. -/
  refused : Option Role
  /-- Whether it accepts what it had granted. -/
  returned : Role → Bool
  deriving Inhabited

namespace Course

variable (k : Course) (c : Controller) (target : Each Offset) (c' : Controller)

/-- The dealings of the move, and for which roles they are. In the end the controller is `c'`. -/
def word : List (Role × Dealing) :=
  inTurn (c.moving target) (fun r => c.lettingGo (k.accepted r) r) ++
  inTurn k.granted (fun r => asking (c.destination target r) true) ++
  inTurn k.refused.toList (fun r => asking (c.destination target r) false) ++
  if k.refused = none then []
  else
    inTurn k.granted (fun r => returning target.get (k.returned r) r) ++
    inTurn (c.moving target) fun r =>
      asking ⟨c.line r, (c.slot r).polarity⟩ (c'.slot r).isBound

end Course

end Controller

/-! ## Outputs in hand -/

/-- Whether a role has an output in hand after a dealing. It must not get a second one, and only
what it has can be switched or given back. -/
def Dealing.hold? (held : Bool) : Dealing → Option Bool
  | .switched .. => if held then some true else none
  | .released .. => if held then some false else none
  | .requested _ _ _ _ false => some held
  | .requested _ _ _ _ true => if held then none else some true

/-- The same, where only the dealings for the role count. -/
def holds? (role : Role) (held : Bool) (a : Role × Dealing) : Option Bool :=
  if a.1 = role then a.2.hold? held else some held

theorem foldlM_inTurn (role : Role) {roles : List Role} (hroles : roles.Nodup)
    (say : Role → List Dealing) (held : Bool) :
    (inTurn roles say).foldlM (holds? role) held =
      if role ∈ roles then (say role).foldlM Dealing.hold? held else some held := by
  have hself (as : List Dealing) (held : Bool) :
      (as.map fun a => (role, a)).foldlM (holds? role) held = as.foldlM Dealing.hold? held := by
    rw [List.foldlM_map]
    simp only [holds?, if_true]
  have hother {r : Role} (h : r ≠ role) (as : List Dealing) (held : Bool) :
      (as.map fun a => (r, a)).foldlM (holds? role) held = some held := by
    rw [List.foldlM_map]
    induction as with
    | nil => rfl
    | cons a rest ih => simpa [List.foldlM_cons, holds?, h] using ih
  induction roles generalizing held with
  | nil => rfl
  | cons first rest ih =>
    obtain ⟨hfirst, hrest⟩ := List.nodup_cons.mp hroles
    rw [inTurn_cons, List.foldlM_append]
    by_cases h : first = role
    · subst h
      rw [hself, if_pos (.head _)]
      simp only [ih hrest, if_neg hfirst]
      cases (say first).foldlM Dealing.hold? held <;> rfl
    · rw [hother h]
      have hmem : role ∈ first :: rest ↔ role ∈ rest := by simp [Ne.symm h]
      simp only [Option.bind_eq_bind, Option.bind_some, ih hrest, hmem]

namespace Controller

variable {σ : Type} [Board σ] {c c' : Controller} {wanted : Each (Option Offset)}
  {target : Each Offset} {k : Course}

theorem foldlM_asking (pin : Pin) (granted : Bool) :
    (asking pin granted).foldlM Dealing.hold? false = some granted := by
  cases granted <;> rfl

theorem foldlM_lettingGo (c : Controller) (accepted : Bool) (role : Role) :
    (c.lettingGo accepted role).foldlM Dealing.hold? (c.slot role).isBound = some false := by
  unfold lettingGo Slot.isBound
  cases (c.slot role).output <;> rfl

/-- Some roles ask in turn, up to the first that is refused. -/
structure Course.Asks (k : Course) (roles : List Role) : Prop where
  granted : k.refused = none → k.granted = roles
  refused : ∀ r, k.refused = some r → ∃ rest, roles = k.granted ++ r :: rest

theorem Course.Asks.mem {roles : List Role} (h : k.Asks roles) {role : Role}
    (hrole : role ∈ k.granted ∨ role ∈ k.refused.toList) : role ∈ roles := by
  cases hk : k.refused with
  | none =>
    rw [hk] at hrole
    exact h.granted hk ▸ hrole.resolve_right List.not_mem_nil
  | some q =>
    obtain ⟨rest, rfl⟩ := h.refused q hk
    rw [hk, Option.toList_some, List.mem_singleton] at hrole
    rcases hrole with hrole | rfl
    · exact List.mem_append_left _ hrole
    · exact List.mem_append_right _ List.mem_cons_self

/-- Only roles that move have a part in it. -/
theorem Course.Asks.fst_mem (h : k.Asks (c.moving target)) {a : Role × Dealing}
    (ha : a ∈ k.word c target c') : a.1 ∈ c.moving target := by
  unfold word at ha
  split at ha <;> simp only [List.append_nil, List.mem_append] at ha
  · obtain (ha | ha) | ha := ha
    · exact fst_mem_of_mem_inTurn ha
    · exact h.mem (.inl (fst_mem_of_mem_inTurn ha))
    · exact h.mem (.inr (fst_mem_of_mem_inTurn ha))
  · obtain ((ha | ha) | ha) | ha | ha := ha
    · exact fst_mem_of_mem_inTurn ha
    · exact h.mem (.inl (fst_mem_of_mem_inTurn ha))
    · exact h.mem (.inr (fst_mem_of_mem_inTurn ha))
    · exact h.mem (.inl (fst_mem_of_mem_inTurn ha))
    · exact fst_mem_of_mem_inTurn ha

/-- A role has the outputs in hand that the dealings gave it, and never two. -/
theorem Course.Asks.foldlM_word (h : k.Asks (c.moving target))
    (hbound : k.refused = none → ∀ r ∈ c.moving target, (c'.slot r).isBound)
    (hstays : ∀ r ∉ c.moving target, c'.slot r = c.slot r) (role : Role) :
    (k.word c target c').foldlM (holds? role) (c.slot role).isBound =
      some (c'.slot role).isBound := by
  have hnodup := nodup_moving c target
  have hgo (held : Bool) := foldlM_inTurn role hnodup
    (fun r => c.lettingGo (k.accepted r) r) held
  unfold Course.word
  rw [List.foldlM_append, List.foldlM_append, List.foldlM_append, hgo]
  cases hk : k.refused with
  | none =>
    have hask (held : Bool) := foldlM_inTurn role (h.granted hk ▸ hnodup)
      (fun r => asking (c.destination target r) true) held
    rw [h.granted hk] at hask ⊢
    by_cases hmem : role ∈ c.moving target
    · rw [if_pos hmem, foldlM_lettingGo]
      simp only [Option.bind_eq_bind, Option.bind_some, hask, if_pos hmem, foldlM_asking,
        hbound hk role hmem]
      rfl
    · rw [if_neg hmem, hstays role hmem]
      simp only [Option.bind_eq_bind, Option.bind_some, hask, if_neg hmem]
      rfl
  | some q =>
    obtain ⟨rest, hmoving⟩ := h.refused q hk
    have hsplit := List.nodup_append.mp (hmoving ▸ hnodup)
    have hask (held : Bool) := foldlM_inTurn role hsplit.1
      (fun r => asking (c.destination target r) true) held
    have hrefuse (held : Bool) := foldlM_inTurn role (List.pairwise_singleton (· ≠ ·) q)
      (fun r => asking (c.destination target r) false) held
    have hreturn (held : Bool) := foldlM_inTurn role hsplit.1
      (fun r => returning target.get (k.returned r) r) held
    have hrestore (held : Bool) := foldlM_inTurn role hnodup
      (fun r => asking ⟨c.line r, (c.slot r).polarity⟩ (c'.slot r).isBound) held
    rw [if_neg (Option.some_ne_none q), Option.toList_some]
    simp only [Option.bind_eq_bind, List.foldlM_append]
    by_cases hmem : role ∈ c.moving target
    · rw [if_pos hmem, foldlM_lettingGo, Option.bind_some, hask]
      by_cases hg : role ∈ k.granted
      · have hq : role ∉ [q] := fun hq => hsplit.2.2 _ hg _
          (List.mem_cons.mpr (.inl (List.mem_singleton.mp hq))) rfl
        rw [if_pos hg, foldlM_asking, Option.bind_some, hrefuse, if_neg hq, Option.bind_some,
          hreturn, if_pos hg]
        exact (hrestore false).trans ((if_pos hmem).trans (foldlM_asking ..))
      · have hq : (if role ∈ [q] then
            (asking (c.destination target role) false).foldlM Dealing.hold? false
            else some false) = some false := by split <;> rfl
        rw [if_neg hg, Option.bind_some, hrefuse, hq, Option.bind_some, hreturn, if_neg hg]
        exact (hrestore false).trans ((if_pos hmem).trans (foldlM_asking ..))
    · have hg : role ∉ k.granted := fun hg => hmem (h.mem (.inl hg))
      have hq : role ∉ [q] := fun hq => hmem (h.mem (.inr (by rwa [hk])))
      rw [if_neg hmem, Option.bind_some, hask, if_neg hg, Option.bind_some, hrefuse, if_neg hq,
        Option.bind_some, hreturn, if_neg hg, Option.bind_some, hrestore, if_neg hmem,
        hstays role hmem]

/-- A move took a course: these are its dealings, and it left this. -/
structure Course.Describes (k : Course) (c : Controller) (target : Each Offset)
    (result : Except LineError Unit) (c' : Controller) (dealings : List Dealing) : Prop where
  /-- There were these dealings and no others, in this order. -/
  all : dealings = (k.word c target c').map Prod.snd
  /-- The targets were asked for in turn, up to the first that was refused. -/
  asks : k.Asks (c.moving target)
  /-- It succeeded unless one was, whatever became of the lines that were given back. -/
  succeeded : result = .ok () ↔ k.refused = none
  /-- Only then have the roles other offsets. -/
  offsets : ∀ r, c'.line r = if k.refused = none then target.get r else c.line r
  /-- No role ever had two outputs. -/
  inHand : ∀ r, (k.word c target c').foldlM (holds? r) (c.slot r).isBound =
    some (c'.slot r).isBound
  /-- A role that does not move had no part in it. -/
  stays : ∀ r, ¬ c.Moves target r → c'.slot r = c.slot r ∧ ∀ a ∈ k.word c target c', a.1 ≠ r

/-- All dealings of a move. -/
def dealings (c : Controller) (wanted : Each (Option Offset)) (s : σ) : List Dealing :=
  (c.rebind wanted (⟨s, []⟩ : Witnessed σ)).2.2.dealings

/-- What a move has to do with the board, and in which order. -/
structure HandsOver (c : Controller) (wanted : Each (Option Offset)) (s : σ) : Prop where
  /-- The move is the same if it is watched. -/
  watched : c.rebind wanted s =
    (c.rebind wanted (⟨s, []⟩ : Witnessed σ)).map id (Prod.map id Witnessed.board)
  /-- The valve comes before the pump. -/
  order : (c.moving (c.targets wanted)).Sublist [.valve, .pump]
  /-- Nothing is done for targets that coincide. -/
  shared : (c.targets wanted).valve = (c.targets wanted).pump →
    c.rebind wanted s = (.error (.shared (c.targets wanted).valve), c, s) ∧
      c.dealings wanted s = []
  /-- Any other move takes its course. -/
  course : (c.targets wanted).valve ≠ (c.targets wanted).pump → ∃ k : Course,
    k.Describes c (c.targets wanted) (c.rebind wanted s).1 (c.rebind wanted s).2.1
      (c.dealings wanted s)

/-- The course of a move that succeeds. -/
theorem describes_settle {acquired : List (Role × Output)} (accepted : Role → Bool)
    (hacquired : acquired.map Prod.fst = c.moving target) (s : σ) :
    Course.Describes ⟨accepted, c.moving target, none, fun _ => true⟩ c target (.ok ())
      ((c.dropAll (c.moving target)).settle acquired target.get s).1
      ((c.moving target).flatMap (fun r => c.lettingGo (accepted r) r) ++
        (c.moving target).flatMap fun r => asking (c.destination target r) true) := by
  have hasks : Course.Asks ⟨accepted, c.moving target, none, fun _ => true⟩ (c.moving target) :=
    ⟨fun _ => rfl, fun _ h => by cases h⟩
  have hstays : ∀ r ∉ c.moving target,
      ((c.dropAll (c.moving target)).settle acquired target.get s).1.slot r = c.slot r := by
    intro r hr
    rw [slot_settle_of_notMem _ (hacquired ▸ hr), slot_dropAll, if_neg hr]
  refine ⟨?_, hasks, iff_of_true rfl rfl, fun r => ?_, hasks.foldlM_word
    (fun _ r hr => (settled _ (hacquired ▸ hr) ..).2) hstays,
    fun r hr => ⟨hstays r (mt mem_moving.mp hr), fun a ha he => ?_⟩⟩
  · simp only [Course.word, List.map_append, map_snd_inTurn, Option.toList_none, List.flatMap_nil,
      if_true, List.append_nil]
  · rw [if_pos rfl]
    by_cases hr : r ∈ c.moving target
    · exact (settled _ (hacquired ▸ hr) ..).1
    · rw [line, hstays r hr]
      exact (eq_line_of_not_moves (mt mem_moving.mpr hr)).1.symm
  · exact hr (mem_moving.mp (he ▸ hasks.fst_mem ha))

/-- The course of a move that fails. -/
theorem describes_restore {granted rest : List Role} {q : Role} (e : LineError)
    (accepted returned : Role → Bool) (hgranted : c.moving target = granted ++ q :: rest) (s : σ) :
    Course.Describes ⟨accepted, granted, some q, returned⟩ c target (.error e)
      ((c.dropAll (c.moving target)).restore (c.moving target) s).1
      ((c.moving target).flatMap (fun r => c.lettingGo (accepted r) r) ++
        granted.flatMap (fun r => asking (c.destination target r) true) ++
        asking (c.destination target q) false ++
        (granted.flatMap (fun r => returning target.get (returned r) r) ++
        (c.moving target).flatMap fun r => asking ⟨c.line r, (c.slot r).polarity⟩
          (((c.dropAll (c.moving target)).restore (c.moving target) s).1.slot r).isBound)) := by
  have hasks : Course.Asks ⟨accepted, granted, some q, returned⟩ (c.moving target) := by
    refine ⟨fun h => (by cases h), fun r hr => ?_⟩
    obtain rfl := Option.some.inj hr
    exact ⟨rest, hgranted⟩
  have hstays : ∀ r ∉ c.moving target,
      ((c.dropAll (c.moving target)).restore (c.moving target) s).1.slot r = c.slot r := by
    intro r hr
    rw [slot_restore_of_notMem hr, slot_dropAll, if_neg hr]
  refine ⟨?_, hasks, iff_of_false (by simp) (by simp), fun r => ?_, hasks.foldlM_word
    (fun h => by cases h) hstays,
    fun r hr => ⟨hstays r (mt mem_moving.mp hr), fun a ha he => ?_⟩⟩
  · simp only [Course.word, List.map_append, map_snd_inTurn, Option.toList_some,
      Option.some_ne_none, if_false, List.flatMap_cons, List.flatMap_nil, List.append_nil]
  · rw [if_neg (Option.some_ne_none q), line_restore, line_dropAll]
  · exact hr (mem_moving.mp (he ▸ hasks.fst_mem ha))

/-- A move of roles that are not to be on one line takes its course, whatever the board answers. -/
theorem course_rebind (hne : (c.targets wanted).valve ≠ (c.targets wanted).pump)
    (w : Witnessed σ) : ∃ (k : Course) (after : List Dealing),
      k.Describes c (c.targets wanted) (c.rebind wanted w).1 (c.rebind wanted w).2.1 after ∧
        (c.rebind wanted w).2.2.dealings = w.dealings ++ after := by
  unfold rebind
  simp only
  rw [if_neg hne]
  generalize c.targets wanted = target
  obtain ⟨accepted, hgone⟩ := dealings_unbindAll (nodup_moving c target) c w
  split
  · next hnone =>
    have h := describes_settle accepted
      (show ([] : List (Role × Output)).map Prod.fst = c.moving target from hnone.symm) w
    rw [hnone] at h
    exact ⟨_, _, h, List.append_nil _ ▸ Witnessed.dealings_log ..⟩
  · rw [fst_unbindAll, destination_dropAll]
    generalize (c.unbindAll (c.moving target) w).2 = w₁ at hgone
    have hasked := dealings_acquire (c.destination target) (c.moving target) w₁
    obtain ⟨hall, hupTo⟩ := acquire_upTo (c.destination target) (c.moving target) w₁
    rcases hacquire : acquire (c.destination target) (c.moving target) w₁ with
      ⟨acquired, _ | ⟨q, e⟩, w₂⟩ <;>
      simp only [hacquire, hgone, List.append_assoc] at hasked hall hupTo ⊢
    · have hacquired := hall trivial
      refine ⟨_, _, describes_settle accepted hacquired w₂, ?_⟩
      rw [dealings_settle, hasked, hacquired]
      simp
    · obtain ⟨rest, hmoving⟩ := hupTo q e rfl
      generalize hlog : log .warn _ w₂ = w₃
      have hw₃ : w₃.dealings = w₂.dealings := hlog ▸ Witnessed.dealings_log ..
      have hnodup := (List.nodup_append.mp (hmoving ▸ nodup_moving c target)).1
      obtain ⟨returned, hback⟩ := dealings_handBack hnodup target.get w₃
      refine ⟨_, _, describes_restore e accepted returned hmoving _, ?_⟩
      have hrestored := dealings_restore (nodup_moving c target) (c := c.dropAll (c.moving target))
        (handBack acquired target.get w₃) fun r hr => by rw [slot_dropAll, if_pos hr]
      rw [hrestored, hback, hw₃, hasked]
      simp only [line_dropAll, polarity_dropAll, List.append_assoc]
      simp

/-- **What a move does, and in which order**, on any board. -/
theorem hands_over (c : Controller) (wanted : Each (Option Offset)) (s : σ) :
    c.HandsOver wanted s where
  watched := Witnessed.carries_board.rebind c wanted (⟨s, []⟩ : Witnessed σ)
  order := List.filter_sublist
  shared := by
    intro heq
    refine ⟨rebind_shared heq s, ?_⟩
    rw [dealings, rebind_shared heq]
  course := by
    intro hne
    obtain ⟨k, after, h, hafter⟩ := course_rebind hne (⟨s, []⟩ : Witnessed σ)
    have hwatched := Witnessed.carries_board.rebind c wanted (⟨s, []⟩ : Witnessed σ)
    refine ⟨k, ?_⟩
    rw [dealings, hafter, hwatched]
    exact h

/-- The pump cannot be had on a line that somebody else holds, on a board that takes nothing back. -/
example :
    let c : Controller :=
      ⟨⟨.activeLow, 17, some ⟨17, .output, .activeLow, true⟩⟩, ⟨.activeHigh, 27, none⟩⟩
    let r : Rig := ⟨⟨"", 58, true, [(5, "fan"), (17, "gh")], []⟩, ⟨true, none⟩, .caller, []⟩
    c.dealings ⟨some 6, some 5⟩ r =
      [.switched 17 false, .released [17] false,
        .requested "gh-daily-cycle-aws" 6 .output .activeLow true,
        .requested "gh-daily-cycle-aws" 5 .output .activeHigh false,
        .released [6] false,
        .requested "gh-daily-cycle-aws" 17 .output .activeLow false,
        .requested "gh-daily-cycle-aws" 27 .output .activeHigh true] := by
  rfl

end Controller

end Irrigation
