import Irrigation.Proofs.Hardware.Bookkeeping

/-!
# Labels of claimed lines

A chip stores a label of at most 32 bytes for the consumer of a line. A longer name is cut between
two of its characters, and what is kept is the longest part at its front that fits (`FitsBest`). So
the label can fall short of 32 bytes, and a character behind the cut is not kept even if it would
fit (`Desk.keeps_labels`).
-/

namespace Irrigation

/-! ## The part that fits -/

section Fitting

variable {room : Nat} {cs front : List Char}

theorem utf8ByteSize_ofList_cons (c : Char) (cs : List Char) :
    (String.ofList (c :: cs)).utf8ByteSize = c.utf8Size + (String.ofList cs).utf8ByteSize := by
  rw [String.ofList_cons, String.utf8ByteSize_append, String.utf8ByteSize_singleton]

theorem fitBytes_prefix (room : Nat) (cs : List Char) : fitBytes room cs <+: cs := by
  induction cs generalizing room with
  | nil => exact List.prefix_refl _
  | cons c rest ih =>
    rw [fitBytes]
    split
    · exact List.cons_prefix_cons.mpr ⟨rfl, ih _⟩
    · exact List.nil_prefix

theorem utf8ByteSize_fitBytes_le (room : Nat) (cs : List Char) :
    (String.ofList (fitBytes room cs)).utf8ByteSize ≤ room := by
  induction cs generalizing room with
  | nil => exact Nat.zero_le _
  | cons c rest ih =>
    rw [fitBytes]
    split
    · next hfits =>
      have hrest := ih (room - c.utf8Size)
      rw [utf8ByteSize_ofList_cons]
      omega
    · exact Nat.zero_le _

/-- Every part at the front that fits is kept. -/
theorem prefix_fitBytes (hfront : front <+: cs)
    (hfits : (String.ofList front).utf8ByteSize ≤ room) : front <+: fitBytes room cs := by
  induction front generalizing room cs with
  | nil => exact List.nil_prefix
  | cons c front ih =>
    cases cs with
    | nil => cases List.prefix_nil.mp hfront
    | cons c' rest =>
      obtain ⟨rfl, hrest⟩ := List.cons_prefix_cons.mp hfront
      rw [utf8ByteSize_ofList_cons] at hfits
      rw [fitBytes, if_pos (by omega)]
      exact List.cons_prefix_cons.mpr ⟨rfl, ih hrest (by omega)⟩

end Fitting

/-- A part of a text is the most of it that fits into some bytes. -/
structure FitsBest (room : Nat) (text part : String) : Prop where
  /-- It is the front of the text, with no character split. -/
  front : ∃ rest : String, text = part ++ rest
  size : part.utf8ByteSize ≤ room
  /-- Any front of the text that fits is in it. -/
  longest : ∀ other rest : String, text = other ++ rest → other.utf8ByteSize ≤ room →
    ∃ more : String, part = other ++ more
  /-- A text that fits is kept whole. -/
  whole : text.utf8ByteSize ≤ room → part = text
  /-- It ends before the first character that does not fit, whatever comes behind. -/
  cut : ∀ (before : String) (c : Char) (after : String),
    text = before ++ String.singleton c ++ after → before.utf8ByteSize ≤ room →
    room < (before ++ String.singleton c).utf8ByteSize → part = before

section Best

variable {room : Nat} {text part : String}

theorem exists_eq_append_iff : (∃ rest : String, text = part ++ rest) ↔
    part.toList <+: text.toList := by
  constructor
  · rintro ⟨rest, rfl⟩
    rw [String.toList_append]
    exact List.prefix_append ..
  · rintro ⟨rest, hrest⟩
    exact ⟨String.ofList rest, String.toList_inj.mp (by simp [hrest])⟩

/-- A front that fits and has all others in it fits best. -/
theorem FitsBest.of_longest (hfront : ∃ rest : String, text = part ++ rest)
    (hsize : part.utf8ByteSize ≤ room)
    (hlongest : ∀ other rest : String, text = other ++ rest → other.utf8ByteSize ≤ room →
      ∃ more : String, part = other ++ more) : FitsBest room text part where
  front := hfront
  size := hsize
  longest := hlongest
  whole := by
    intro hfits
    have hpart : part.toList <+: text.toList := exists_eq_append_iff.mp hfront
    have hall : text.toList <+: part.toList :=
      exists_eq_append_iff.mp (hlongest text "" (String.append_empty).symm hfits)
    exact String.toList_inj.mp (hpart.eq_of_length_le hall.length_le)
  cut := by
    intro before c after htext hbefore hover
    obtain ⟨rest, hrest⟩ := hfront
    obtain ⟨more, rfl⟩ := hlongest before (String.singleton c ++ after)
      (by rw [htext, String.append_assoc]) hbefore
    -- If something came behind, it would begin with the character that does not fit.
    rw [htext, ← String.toList_inj] at hrest
    simp only [String.toList_append, String.toList_singleton, List.append_assoc,
      List.append_cancel_left_eq, List.cons_append, List.nil_append] at hrest
    cases hmore : more.toList with
    | nil =>
      obtain rfl : more = "" := String.toList_inj.mp hmore
      exact String.append_empty
    | cons c' more' =>
      rw [hmore] at hrest
      obtain rfl := (List.cons.inj hrest).1
      have hsplit : more = String.singleton c ++ String.ofList more' := by
        rw [← String.ofList_cons, ← hmore, String.ofList_toList]
      rw [String.utf8ByteSize_append, hsplit, String.utf8ByteSize_append] at hsize
      rw [String.utf8ByteSize_append] at hover
      omega

/-- **The label of a consumer** is the most of its name that fits. -/
theorem fitsBest_consumerLabel (who : String) :
    FitsBest Wiring.labelCapacity who (consumerLabel who) := by
  refine .of_longest (exists_eq_append_iff.mpr ?_) (utf8ByteSize_fitBytes_le _ _)
    fun other rest hother hfits => exists_eq_append_iff.mpr ?_
  · rw [consumerLabel, String.toList_ofList]
    exact fitBytes_prefix ..
  · rw [consumerLabel, String.toList_ofList]
    refine prefix_fitBytes (exists_eq_append_iff.mp ⟨rest, hother⟩) ?_
    rwa [String.ofList_toList]

/-- A character of two bytes that begins at the last one is left out, and so is what follows, though
it would fit. -/
example :
    consumerLabel "0123456789012345678901234567890é!" = "0123456789012345678901234567890" := by
  decide +kernel

end Best

/-! ## Labels on a chip -/

namespace Desk

/-- What the chip has stored about the consumers of its lines. -/
structure KeepsLabels (d : Desk) : Prop where
  /-- A request that nothing stands against leaves the best label for the line. -/
  stores : ∀ who n dir p, d.rig.chip.refusal? n = none → ∃ label,
    (d.next (.request who n dir p)).rig.chip.consumer? n = some label ∧ FitsBest 32 who label
  /-- The label of a claimed line is the best one for who requested it last. -/
  stored : ∀ n label, d.rig.chip.consumer? n = some label → ∃ who,
    d.lastOn? n = some (.lent who n) ∧ FitsBest 32 who label

/-- **Labels are the longest fronts that fit**, whoever requests a line and whatever was done with
the chip before. -/
theorem keeps_labels (path : String) (count : Nat) (uses : List ChipUse) :
    (after path count uses).KeepsLabels := by
  have h := balanced_after path count uses
  generalize after path count uses = d at h
  refine ⟨fun who n dir p hfree => ⟨consumerLabel who, ?_, fitsBest_consumerLabel who⟩,
    fun n label hlabel => ?_⟩
  · obtain ⟨r', hr', -, -, -, hclaims, -⟩ := Rig.request_granted hfree who dir p
    simp only [next, hr', Chip.consumer?, hclaims, List.lookup_cons_self]
  · have hopen : d.rig.chip.isOpen = true := by
      rw [← Bool.not_eq_false]
      intro hclosed
      rw [Chip.consumer?, h.cleared hclosed] at hlabel
      cases hlabel
    rw [h.account hopen] at hlabel
    obtain ⟨who, hwho, rfl⟩ := lastOn?_bind hlabel
    exact ⟨who, hwho, fitsBest_consumerLabel who⟩

end Desk

end Irrigation
