import Irrigation.Proofs.Hardware.Release

/-!
# Several controllers on one rig

A rig houses some controllers and the outputs of third parties (`Rig.Houses`) if it serves all of
them together and each controller is fitted. Any of the controllers can be worked with alone
(`Houses.hosts`), and takes its place among the others again afterwards (`Hosts.house`).
-/

namespace Irrigation

namespace Controller

/-- None of the outputs is on. -/
def Quiet (c : Controller) : Prop := ∀ role o, (c.slot role).output = some o → o.active = false

theorem Calms.quiet {c c' : Controller} (h : Calms c c') (hq : c.Quiet) : c'.Quiet := by
  intro role o ho
  rw [Bool.eq_false_iff]
  intro ha
  rw [hq role o (h.active role o ho ha)] at ha
  cases ha

theorem outputs_eq_nil {c : Controller} (h : ∀ role, (c.slot role).output = none) :
    c.outputs = [] := by
  have hv : c.slots.valve.output = none := h .valve
  have hp : c.slots.pump.output = none := h .pump
  rw [outputs, hv, hp]
  rfl

theorem outputs_release (c : Controller) (r : Rig) : (c.release r).1.outputs = [] := by
  refine outputs_eq_nil fun role => ?_
  rw [release, fst_unbindAll, slot_dropAll, if_pos (Role.mem_all role)]

end Controller

namespace Rig

/-- The rig serves these controllers and these outputs of third parties. -/
structure Houses (r : Rig) (live : List Controller) (guests : List Output) : Prop where
  serves : r.Serves (live.flatMap Controller.outputs ++ guests)
  fitted : ∀ c ∈ live, c.Fitted

variable {r r' : Rig} {c c' : Controller} {rest live live' : List Controller}
  {guests guests' : List Output}

theorem Houses.of_eq (h : r.Houses live guests) (hc : r'.chip = r.chip)
    (hf : r'.faults = r.faults) : r'.Houses live guests :=
  ⟨h.serves.of_eq hc hf, h.fitted⟩

theorem Houses.perm (h : r.Houses live guests) (p : live.Perm live') : r.Houses live' guests :=
  ⟨h.serves.perm ((p.flatMap_right _).append_right _),
    fun c hc => h.fitted c (p.mem_iff.mpr hc)⟩

/-- The first controller alone, the rest being somebody else's. -/
theorem Houses.hosts (h : r.Houses (c :: rest) guests) :
    r.Hosts c (rest.flatMap Controller.outputs ++ guests) := by
  have hs := h.serves
  rw [List.flatMap_cons, List.append_assoc] at hs
  exact ⟨hs, h.fitted c (.head _)⟩

/-- What has become of the first controller takes its place. -/
theorem Houses.house (h : r.Houses (c :: rest) guests)
    (h' : r'.Hosts c' (rest.flatMap Controller.outputs ++ guests)) :
    r'.Houses (c' :: rest) guests := by
  refine ⟨?_, fun c₁ hc₁ => ?_⟩
  · rw [List.flatMap_cons, List.append_assoc]
    exact h'.serves
  · rcases List.mem_cons.mp hc₁ with rfl | hc₁
    · exact h'.fitted
    · exact h.fitted c₁ (.tail _ hc₁)

/-- A controller without outputs can be left out. -/
theorem Houses.tail (h : r.Houses (c :: rest) guests) (hc : c.outputs = []) :
    r.Houses rest guests := by
  refine ⟨?_, fun c₁ hc₁ => h.fitted c₁ (.tail _ hc₁)⟩
  have hs := h.serves
  rw [List.flatMap_cons, hc] at hs
  exact hs

/-- A controller that is given up is gone. -/
theorem Houses.release (h : r.Houses (c :: rest) guests) :
    (c.release r).2.Houses rest guests := by
  have h' := Controller.hosts_unbindAll Role.all h.hosts
  rw [← Controller.fst_unbindAll Role.all c r] at h'
  exact (h.house h').tail (Controller.outputs_release c r)

/-- A controller that has just been wired is one more. -/
theorem Houses.wire (h : r.Houses live guests) {pins : Each Pin}
    (hw : Controller.wire pins r = (.ok c, r')) : r'.Houses (c :: live) guests ∧ c.Quiet := by
  obtain ⟨hhosts, hslots⟩ := Controller.hosts_wire h.serves hw
  refine ⟨⟨?_, fun c₁ hc₁ => ?_⟩, fun role o ho => ?_⟩
  · rw [List.flatMap_cons, List.append_assoc]
    exact hhosts.serves
  · rcases List.mem_cons.mp hc₁ with rfl | hc₁
    · exact hhosts.fitted
    · exact h.fitted c₁ hc₁
  · rw [hslots role] at ho
    obtain rfl := Option.some.inj ho
    rfl

theorem Houses.wire_error (h : r.Houses live guests) {pins : Each Pin} {e : LineError}
    (hw : Controller.wire pins r = (.error e, r')) : r'.Houses live guests :=
  ⟨Controller.serves_wire_error h.serves hw, h.fitted⟩

theorem Houses.close (h : r.Houses live guests) : r.close.Houses live guests :=
  ⟨h.serves.close, h.fitted⟩

/-! ## One of several -/

theorem perm_cons_eraseIdx {α : Type} {l : List α} {i : Nat} {a : α} (h : l[i]? = some a) :
    l.Perm (a :: l.eraseIdx i) := by
  obtain ⟨hi, rfl⟩ := List.getElem?_eq_some_iff.mp h
  rw [List.eraseIdx_eq_take_drop_succ]
  refine .trans (.of_eq ?_) List.perm_middle
  rw [← List.drop_eq_getElem_cons hi, List.take_append_drop]

theorem set_perm_cons_eraseIdx {α : Type} {l : List α} {i : Nat} {a : α} (h : l[i]? = some a)
    (b : α) : (l.set i b).Perm (b :: l.eraseIdx i) := by
  obtain ⟨hi, -⟩ := List.getElem?_eq_some_iff.mp h
  rw [List.eraseIdx_eq_take_drop_succ, List.set_eq_take_append_cons_drop, if_pos hi]
  exact List.perm_middle

/-- A controller alone, the rest being somebody else's. -/
theorem Houses.hostsAt (h : r.Houses live guests) {k : Nat} (hc : live[k]? = some c) :
    r.Hosts c ((live.eraseIdx k).flatMap Controller.outputs ++ guests) :=
  (h.perm (perm_cons_eraseIdx hc)).hosts

/-- What has become of a controller takes its place. -/
theorem Houses.set (h : r.Houses live guests) {k : Nat} (hc : live[k]? = some c)
    (h' : r'.Hosts c' ((live.eraseIdx k).flatMap Controller.outputs ++ guests)) :
    r'.Houses (live.set k c') guests :=
  ((h.perm (perm_cons_eraseIdx hc)).house h').perm (set_perm_cons_eraseIdx hc c').symm

/-- A controller that is given up stays, without its lines. -/
theorem Houses.giveUp (h : r.Houses live guests) {k : Nat} (hc : live[k]? = some c) :
    (c.release r).2.Houses (live.set k (c.release r).1) guests := by
  have h' := Controller.hosts_unbindAll Role.all (h.hostsAt hc)
  rw [← Controller.fst_unbindAll Role.all c r] at h'
  exact h.set hc h'

/-! ## Third parties -/

/-- A release of several lines, all held by third parties, leaves the others to their holders. -/
theorem Serves.releaseSome {held : List Output} (h : r.Serves (held ++ guests))
    {offsets : List Offset} (howned : ∀ n ∈ offsets, n ∈ guests.map Output.offset)
    (hrel : r.release offsets = (true, r')) :
    r'.Serves (held ++ guests.filter fun o => !offsets.contains o.offset) := by
  have hsub : (held ++ guests.filter fun o => !offsets.contains o.offset).Sublist
      (held ++ guests) :=
    List.filter_sublist.append_left held
  have hmem := fun o => hsub.subset (a := o)
  have hapart : ∀ o ∈ held, o.offset ∉ offsets := by
    intro o ho hin
    have hn := h.nodup
    rw [List.map_append] at hn
    exact (List.nodup_append.mp hn).2.2 _ (List.mem_map_of_mem ho) _ (howned _ hin) rfl
  unfold Rig.release at hrel
  split at hrel
  · cases hrel
  · obtain rfl := (Prod.mk.inj hrel).2
    refine ⟨h.nodup.sublist (hsub.map _), fun o ho => h.hasLine o (hmem o ho),
      fun o ho => h.level o (hmem o ho), fun hopen n => ?_, h.obeys⟩
    change (Chip.unclaim _ _).isClaimed n ↔ _
    rw [Chip.isClaimed_unclaim, Bool.and_eq_true, h.claimed hopen n, List.mem_map, List.mem_map]
    constructor
    · rintro ⟨hfree, o, ho, rfl⟩
      refine ⟨o, ?_, rfl⟩
      rcases List.mem_append.mp ho with ho | ho
      · exact List.mem_append_left _ ho
      · exact List.mem_append_right _ (List.mem_filter.mpr ⟨ho, hfree⟩)
    · rintro ⟨o, ho, rfl⟩
      refine ⟨?_, o, hmem o ho, rfl⟩
      rcases List.mem_append.mp ho with ho | ho
      · simpa using hapart o ho
      · exact (List.mem_filter.mp ho).2

theorem release_refused {offsets : List Offset} (hrel : r.release offsets = (false, r')) :
    r' = r := by
  unfold Rig.release at hrel
  split at hrel
  · exact (Prod.mk.inj hrel).2.symm
  · cases hrel

end Rig

end Irrigation
