import Irrigation.Proofs.Results
import Irrigation.Usage.Switch

/-!
# Switches given in a line

A line gives switches, some of them with a value in the word behind (`Given.words`). What a form
reads of such a line does not depend on which switch comes next: a pending switch takes the word
behind it exactly if that is its value (`Form.words_given`). So a line that gives some switches,
each once and in any order, is read into what they put into the record one after the other, unless
two of them are rivals (`Form.read_given`). Whatever else stands in a line, every switch in it is
met (`Form.mem_given_of_words`), so that rivals are never read (`Form.read_rivals`).
-/

namespace Irrigation

variable {α : Type}

/-- A switch of a line, with the value behind it if there is one. -/
structure Given (α : Type) where
  switch : Switch α
  value : Option String := none

namespace Given

/-- The words that give a switch. -/
def words (g : Given α) : List String := ("--" ++ g.switch.name) :: g.value.toList

/-- Puts what is given into a record. -/
def put (g : Given α) (a : α) : Except UsageError α := g.switch.put (g.value.getD "") a

end Given

/-- A word behind a switch is a value for it: one that does not begin with a dash, or a negative
number where the switch takes them. -/
def Takes.Admits : Takes → Option String → Prop
  | .nothing, none => True
  | .value _ negative, some w => Word.ofChars w.toList = .plain ∨
      negative = true ∧ ∃ cs, Word.ofChars w.toList = .letters cs ∧ Word.isNumber cs = true
  | .maybe _, none => True
  | .maybe _, some w => Word.ofChars w.toList = .plain
  | _, _ => False

namespace Form

variable {f : Form α} {g : Given α} {s : Switch α} {r r' : Reading α} {a a' : α} {w : String}
  {ws : List String} {value : Option String}

/-- A form has a switch, under a name that can be written behind two dashes. -/
structure Has (f : Form α) (s : Switch α) : Prop where
  found : f.switches.find? (fun other => other.name == s.name) = some s
  named : s.name ≠ ""
  long : Word.ofChars ("--" ++ s.name).toList = .long s.name none

theorem Has.ne_dashes (h : f.Has s) : "--" ++ s.name ≠ "--" := by
  intro heq
  have hlist := congrArg String.toList heq
  rw [String.toList_append] at hlist
  exact h.named (String.toList_inj.mp (List.append_right_eq_self.mp hlist))

theorem words_cons (h : w ≠ "--") (ws : List String) (r : Reading α) :
    f.words (w :: ws) r = (f.word r w).bind (f.words ws) := by
  rw [words]
  · rfl
  · exact fun hw _ => h hw
  · exact fun _ _ hw _ => h hw

/-- The word of a switch is read as the switch. -/
theorem word_switch (h : f.Has s) (r : Reading α) :
    f.word r ("--" ++ s.name) = f.enter r s none := by
  simp only [word, h.long, h.found]

/-- A word that the pending switch admits is its value. -/
theorem word_value (hpending : r.pending = some (s, none)) (hadmits : s.takes.Admits (some w)) :
    w ≠ "--" ∧ f.word r w = .ok (r.fill w) := by
  have hawaits : r.awaitsValue = true := by simp only [Reading.awaitsValue, hpending]
  have hplain : Word.ofChars w.toList = .plain → w ≠ "--" ∧ f.word r w = .ok (r.fill w) := by
    intro hw
    refine ⟨?_, by simp only [word, hw, hawaits, if_true]⟩
    rintro rfl
    exact absurd hw (by decide)
  cases htakes : s.takes with
  | nothing =>
    rw [htakes] at hadmits
    exact hadmits.elim
  | maybe called =>
    rw [htakes] at hadmits
    exact hplain hadmits
  | value called negative =>
    rw [htakes] at hadmits
    rcases hadmits with hw | ⟨rfl, cs, hw, hnumber⟩
    · exact hplain hw
    · have hnumeric : r.awaitsNumber = true := by
        simp only [Reading.awaitsNumber, hpending, htakes]
      refine ⟨?_, by simp only [word, hw, hnumeric, hnumber, Bool.and_self, if_true]⟩
      rintro rfl
      exact absurd (hw.symm.trans (by decide)) (nofun : Word.letters cs ≠ .long "" none)

/-! ## What a line gives is put into the record -/

/-- A switch that was not met before is put into the record. -/
theorem accept_eq (hvalue : s.takes.Admits value) (hnew : r.has s = false)
    (hput : s.put (value.getD "") r.record = .ok a) :
    f.accept r s value = .ok { r with record := a, given := r.given ++ [s] } := by
  unfold accept
  split
  · next htakes =>
    rw [htakes] at hvalue
    exact hvalue.elim
  · rw [hnew, if_neg Bool.false_ne_true, hput]
    rfl

/-- A switch that may take a value waits for it. -/
theorem enter_pending (htakes : s.takes ≠ .nothing) (hsettled : f.settle r = .ok r') :
    f.enter r s none = .ok { r' with pending := some (s, none) } := by
  unfold enter
  split
  · next h _ => exact absurd h htakes
  · next h _ => exact absurd h htakes
  · next h _ => cases h
  · rw [hsettled]
    rfl

/-- A switch with its value is read, and is in the record as soon as it is settled, whatever comes
behind it. -/
theorem words_given (hs : f.Has g.switch) (hvalue : g.switch.takes.Admits g.value)
    (hsettled : f.settle r = .ok r') (hfree : r'.pending = none) (hnew : r'.has g.switch = false)
    (hput : g.put r'.record = .ok a) :
    ∃ next, (∀ ws, f.words (g.words ++ ws) r = f.words ws next) ∧
      f.settle next = .ok { r' with record := a, given := r'.given ++ [g.switch] } := by
  obtain ⟨s, value⟩ := g
  have haccept := accept_eq (f := f) hvalue hnew hput
  have hpending : ∀ next : Reading α, next = { r' with pending := some (s, value) } →
      f.settle next = .ok { r' with record := a, given := r'.given ++ [s] } := by
    rintro _ rfl
    rw [← haccept]
    simp only [settle, ← hfree]
  have hswitch : ∀ ws, f.words (("--" ++ s.name) :: ws) r = (f.enter r s none).bind (f.words ws) :=
    fun ws => by rw [words_cons hs.ne_dashes, word_switch hs]
  cases value with
  | none =>
    cases htakes : s.takes with
    | nothing =>
      refine ⟨{ r' with record := a, given := r'.given ++ [s] }, fun ws => ?_, ?_⟩
      · refine (hswitch ws).trans ?_
        simp only [enter, htakes, hsettled, bind, Except.bind, haccept]
      · simp only [settle, hfree]
    | maybe called =>
      refine ⟨{ r' with pending := some (s, none) }, fun ws => ?_, hpending _ rfl⟩
      refine (hswitch ws).trans ?_
      rw [enter_pending (by simp [htakes]) hsettled]
      rfl
    | value called negative =>
      rw [htakes] at hvalue
      exact hvalue.elim
  | some w =>
    have hword := word_value (f := f) (r := { r' with pending := some (s, none) }) rfl hvalue
    refine ⟨{ r' with pending := some (s, some w) }, fun ws => ?_, hpending _ rfl⟩
    have htakes : s.takes ≠ .nothing := by
      intro htakes
      rw [htakes] at hvalue
      exact hvalue
    refine (hswitch (w :: ws)).trans ?_
    rw [enter_pending htakes hsettled]
    change f.words (w :: ws) _ = _
    rw [words_cons hword.1, hword.2]
    rfl

/-- What some switches put into a record, one after the other. -/
def putAll (gs : List (Given α)) (a : α) : Except UsageError α := gs.foldlM (fun a g => g.put a) a

/-- A line that gives some switches, each of them once, is read into what they put into the
record. -/
theorem words_flatMap {gs : List (Given α)}
    (hgs : ∀ g ∈ gs, f.Has g.switch ∧ g.switch.takes.Admits g.value)
    (hnames : (gs.map fun g => g.switch.name).Nodup) (hsettled : f.settle r = .ok r')
    (hfree : r'.pending = none) (hnew : ∀ g ∈ gs, r'.has g.switch = false)
    (hput : putAll gs r'.record = .ok a) : f.words (gs.flatMap Given.words) r =
      .ok { r' with record := a, given := r'.given ++ gs.map Given.switch } := by
  induction gs generalizing r r' with
  | nil =>
    obtain rfl := Except.ok.inj hput
    rw [List.map_nil, List.append_nil]
    exact hsettled
  | cons g rest ih =>
    obtain ⟨hs, hvalue⟩ := hgs g List.mem_cons_self
    have hgnew : r'.has g.switch = false := hnew g List.mem_cons_self
    rw [List.map_cons, List.nodup_cons] at hnames
    rw [putAll, List.foldlM_cons] at hput
    obtain ⟨a₁, hfirst, hput⟩ := exists_of_bind_eq_ok hput
    obtain ⟨next, hnext, hsettledNext⟩ := words_given hs hvalue hsettled hfree hgnew hfirst
    have hrest := ih (fun g' hg' => hgs g' (List.mem_cons_of_mem _ hg')) hnames.2 hsettledNext
      hfree ?_ hput
    · rw [List.flatMap_cons, hnext, hrest, List.map_cons, List.append_assoc]
      rfl
    · intro g' hg'
      have hne : g.switch.name ≠ g'.switch.name := fun heq =>
        hnames.1 (List.mem_map.mpr ⟨g', hg', heq.symm⟩)
      have hold := hnew g' (List.mem_cons_of_mem _ hg')
      simp only [Reading.has] at hold
      simp only [Reading.has, List.any_append, hold, List.any_cons, List.any_nil,
        beq_false_of_ne hne, Bool.or_self]

/-- What a line is read as when all its words have been read: the record, unless there are
rivals. -/
def result (f : Form α) (r : Reading α) : Except UsageError α :=
  match r.conflict? with
  | some (s, other) =>
    .error (f.refuse (.conflict s.title other.title)
      (r.given.filter fun given => given.name != other.name))
  | none => .ok r.record

theorem read_eq (f : Form α) (start : α) (ws : List String) :
    f.read start ws = (f.words ws { record := start }).bind f.result := rfl

theorem result_of_none (h : r.conflict? = none) : f.result r = .ok r.record := by
  rw [result, h]

theorem result_of_some {other : Switch α} (h : r.conflict? = some (s, other)) :
    ∃ advice, f.result r = .error (.misuse (.conflict s.title other.title) advice) := by
  rw [result, h]
  exact ⟨_, rfl⟩

/-- **A line gives its switches in any order**: without rivals, it is read as what they put into
the record. -/
theorem read_given (gs : List (Given α)) (start : α)
    (hgs : ∀ g ∈ gs, f.Has g.switch ∧ g.switch.takes.Admits g.value)
    (hnames : (gs.map fun g => g.switch.name).Nodup) (hput : putAll gs start = .ok a) :
    f.read start (gs.flatMap Given.words) =
      f.result { record := a, given := gs.map Given.switch } := by
  have hwords := words_flatMap (f := f) (r := { record := start }) hgs hnames rfl rfl
    (fun _ _ => rfl) hput
  rw [read_eq, hwords]
  rfl

/-! ## What a line gives is met -/

/-- The switches that were met, the pending one behind the others. -/
def met (r : Reading α) : List (Switch α) := r.given ++ (r.pending.map Prod.fst).toList

theorem accept_ok (h : f.accept r s value = .ok r') :
    r'.given = r.given ++ [s] ∧ r'.pending = r.pending := by
  unfold accept at h
  generalize s.put (value.getD "") r.record = result at h
  split at h
  · cases h
  · split at h
    · cases h
    · obtain ⟨record, -, rfl⟩ := exists_of_map_eq_ok h
      exact ⟨rfl, rfl⟩

theorem settle_ok (h : f.settle r = .ok r') : r'.given = met r ∧ r'.pending = none := by
  unfold settle at h
  split at h
  · next hnone =>
    obtain rfl := Except.ok.inj h
    exact ⟨by rw [met, hnone, Option.map_none, Option.toList_none, List.append_nil], hnone⟩
  · next hsome =>
    rw [met, hsome]
    exact accept_ok h

/-- A switch that is entered is met behind those that were. -/
theorem enter_ok (h : f.enter r s value = .ok r') : met r' = met r ++ [s] := by
  have haccept : ∀ value, (f.settle r).bind (fun r₁ => f.accept r₁ s value) = .ok r' →
      met r' = met r ++ [s] := by
    intro value hbind
    obtain ⟨r₁, hr₁, haccepted⟩ := exists_of_bind_eq_ok hbind
    obtain ⟨hgiven, hnone⟩ := settle_ok hr₁
    obtain ⟨hgiven', hpending'⟩ := accept_ok haccepted
    rw [met, hgiven', hpending', hgiven, hnone]
    exact List.append_nil _
  unfold enter at h
  split at h
  · cases h
  · exact haccept _ h
  · exact haccept _ h
  · obtain ⟨r₁, hr₁, hpending⟩ := exists_of_bind_eq_ok h
    obtain ⟨hgiven, -⟩ := settle_ok hr₁
    obtain rfl := Except.ok.inj hpending
    rw [← hgiven]
    rfl

theorem letters_ok {cs : List Char} (h : f.letters cs r = .ok r') : met r <+: met r' := by
  induction cs generalizing r with
  | nil =>
    obtain rfl := Except.ok.inj h
    exact List.prefix_refl _
  | cons c rest ih =>
    rw [letters] at h
    split at h
    · cases h
    · next s _ =>
      obtain ⟨r₁, hr, h⟩ := exists_of_bind_eq_ok h
      exact (List.prefix_append _ _).trans (enter_ok hr ▸ ih h)

theorem met_fill (r : Reading α) (w : String) : met (r.fill w) = met r := by
  unfold met Reading.fill
  cases r.pending <;> rfl

/-- Reading a word loses no switch, and a switch that is written is met. -/
theorem word_ok (h : f.word r w = .ok r') :
    met r <+: met r' ∧ ∀ s, f.Has s → w = "--" ++ s.name → s ∈ met r' := by
  refine ⟨?_, fun s hs hw => ?_⟩
  · unfold word at h
    split at h
    · split at h
      · cases h
      · exact enter_ok h ▸ List.prefix_append _ _
    · split at h
      · obtain rfl := Except.ok.inj h
        exact (met_fill r w).symm ▸ List.prefix_refl _
      · exact letters_ok h
    · split at h
      · obtain rfl := Except.ok.inj h
        exact (met_fill r w).symm ▸ List.prefix_refl _
      · cases h
  · subst hw
    rw [word_switch hs] at h
    rw [enter_ok h]
    exact List.mem_append_right _ List.mem_cons_self

/-- **Every switch of a line that is read is met.** -/
theorem mem_given_of_words (h : f.words ws r = .ok r') :
    (∀ s ∈ met r, s ∈ r'.given) ∧ ∀ s, f.Has s → "--" ++ s.name ∈ ws → s ∈ r'.given := by
  induction ws generalizing r with
  | nil =>
    rw [words] at h
    exact ⟨fun s hs => (settle_ok h).1 ▸ hs, fun _ _ hmem => absurd hmem List.not_mem_nil⟩
  | cons w rest ih =>
    by_cases hw : w = "--"
    · subst hw
      cases rest with
      | nil =>
        rw [words] at h
        refine ⟨fun s hs => (settle_ok h).1 ▸ hs, fun s hs hmem => ?_⟩
        exact absurd (List.mem_singleton.mp hmem) hs.ne_dashes
      | cons extra rest =>
        rw [words] at h
        cases h
    · rw [words_cons hw] at h
      obtain ⟨r₁, hr, h⟩ := exists_of_bind_eq_ok h
      obtain ⟨hmet, hgiven⟩ := ih h
      obtain ⟨hkept, hswitch⟩ := word_ok hr
      refine ⟨fun s hs => hmet s (hkept.subset hs), fun s hs hmem => ?_⟩
      rcases List.mem_cons.mp hmem with heq | hmem
      · exact hmet s (hswitch s hs heq.symm)
      · exact hgiven s hs hmem

/-! ## Rivals -/

/-- Two switches of which a line may give only one. -/
structure Rivals (theme : String) (s other : Switch α) : Prop where
  left : s.theme = some theme
  right : other.theme = some theme
  differ : other.name ≠ s.name

/-- Rivals that were given are found. -/
theorem conflict?_isSome {other : Switch α} {theme : String} (h : Rivals theme s other)
    (hs : s ∈ r.given) (hother : other ∈ r.given) : r.conflict?.isSome = true := by
  rw [Reading.conflict?, List.findSome?_isSome_iff]
  refine ⟨s, hs, ?_⟩
  rw [Option.isSome_map, Reading.rival?, h.left, Option.bind_some, List.find?_isSome]
  exact ⟨other, hother, by simp [h.differ, h.right]⟩

/-- Only rivals are found. -/
theorem rivals_of_conflict? {other : Switch α} (h : r.conflict? = some (s, other)) :
    s ∈ r.given ∧ other ∈ r.given ∧ ∃ theme, Rivals theme s other := by
  obtain ⟨s', hs', hfound⟩ := List.exists_of_findSome?_eq_some h
  obtain ⟨other', hrival, hpair⟩ := Option.map_eq_some_iff.mp hfound
  obtain ⟨rfl, rfl⟩ := Prod.mk.inj hpair
  obtain ⟨theme, htheme, hfind⟩ := Option.bind_eq_some_iff.mp hrival
  obtain ⟨hdiffer, hother⟩ : other'.name ≠ s'.name ∧ other'.theme = some theme := by
    simpa using List.find?_some hfind
  exact ⟨hs', List.mem_of_find?_eq_some hfind, theme, htheme, hother, hdiffer⟩

/-- **No line with two rivals in it is read**, whatever else stands there. -/
theorem read_rivals {other : Switch α} {theme : String} (hs : f.Has s) (hother : f.Has other)
    (h : Rivals theme s other) (hmem : "--" ++ s.name ∈ ws) (hmemOther : "--" ++ other.name ∈ ws)
    (start : α) : ∃ e, f.read start ws = .error e := by
  rw [read_eq]
  cases hr : f.words ws { record := start } with
  | error e => exact ⟨e, rfl⟩
  | ok r =>
    obtain ⟨-, hgiven⟩ := mem_given_of_words hr
    obtain ⟨⟨s', other'⟩, hfound⟩ := Option.isSome_iff_exists.mp
      (conflict?_isSome h (hgiven s hs hmem) (hgiven other hother hmemOther))
    obtain ⟨advice, hresult⟩ := result_of_some (f := f) hfound
    exact ⟨_, hresult⟩

end Form

end Irrigation
