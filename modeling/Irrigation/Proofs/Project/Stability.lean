import Irrigation.Proofs.Project.Upgrading

/-!
# Documents that are up to date

Bringing a document up to date is three things done one after the other, and the second can fail
when the first has been done. `Document.settles` says what comes out of them, for a document whose
members can be anything: what each of them changes, that none of them gives another one something to
do again, and that a failure leaves the title at most. So a document that is up to date comes back
as it is when it is written to a file and read from there (`Document.load_of_save`), provided that
the reader understands what the writer writes.
-/

namespace Irrigation

open Json

/-! ## Files that were written -/

namespace FileTree

variable {t t' : FileTree} {path : String} {content : ByteArray} {here : FilePath}

/-- Where a path ends that leads to a file, or to where one can be. -/
def Place.here? : Place → Option FilePath
  | .file here _ => some here
  | .directory => none
  | .vacant here => some here

theorem file?_put (t : FileTree) (here : FilePath) (content : ByteArray) :
    (t.put here content).file? here = some content := by
  rw [file?, put, List.lookup_cons, beq_self_eq_true]

/-- A name that is none of the two that stand for directories. -/
theorem walk_name {name : String} (hdot : name ≠ ".") (hup : name ≠ "..")
    (hlong : ¬255 < name.utf8ByteSize) (t : FileTree) (base : FilePath) (rest : List String) :
    t.walk base (name :: rest) =
      if t.isDirectory (base ++ [name]) then t.walk (base ++ [name]) rest
      else
        match t.file? (base ++ [name]), rest with
        | some content, [] => .ok (.file (base ++ [name]) content)
        | some _, _ :: _ => .error .notDirectory
        | none, [] => .ok (.vacant (base ++ [name]))
        | none, _ :: _ => .error .notFound := by
  conv_lhs => unfold walk
  split
  · next h => cases h
  · next h => exact absurd (List.cons.inj h).1 hdot
  · next h => exact absurd (List.cons.inj h).1 hup
  · next h =>
    obtain ⟨rfl, rfl⟩ := List.cons.inj h
    exact if_neg hlong

/-- **A file that is put at the end of a way is found there.** -/
theorem walk_put {base : FilePath} {names : List String} {place : Place}
    (hwalk : t.walk base names = .ok place) (hend : place.here? = some here) (content : ByteArray) :
    (t.put here content).walk base names = .ok (.file here content) := by
  -- Directories are as they were, and no file is looked up on the way but the last one.
  have hdirectory : (t.put here content).isDirectory = t.isDirectory := rfl
  fun_induction walk t base names with
  | case1 base =>
    obtain rfl := Except.ok.inj hwalk
    cases hend
  | case2 base rest ih => exact ih hwalk
  | case3 base rest ih => exact ih hwalk
  | case4 => cases hwalk
  | case5 base name rest hdot hup there hlong hisdir ih =>
    rw [walk_name hdot hup hlong, hdirectory, if_pos hisdir]
    exact ih hwalk
  | case6 base name hdot hup there hlong hisdir old hfile =>
    obtain rfl := Except.ok.inj hwalk
    obtain rfl := Option.some.inj hend
    rw [walk_name hdot hup hlong, hdirectory, if_neg hisdir, file?_put]
  | case7 => cases hwalk
  | case8 base name hdot hup there hlong hisdir hfile =>
    obtain rfl := Except.ok.inj hwalk
    obtain rfl := Option.some.inj hend
    rw [walk_name hdot hup hlong, hdirectory, if_neg hisdir, file?_put]
  | case9 => cases hwalk

/-- A way whose last name is a dot ends at a directory. -/
theorem walk_dot {base : FilePath} {names : List String} {place : Place}
    (hwalk : t.walk base names = .ok place) (hlast : ∀ name ∈ names.getLast?, name = ".") :
    place.here? = none := by
  fun_induction walk t base names with
  | case1 base =>
    obtain rfl := Except.ok.inj hwalk
    rfl
  | case2 base rest ih | case3 base rest ih | case5 base name rest hdot hup there hlong hisdir ih =>
    refine ih hwalk fun name hname => hlast name ?_
    rw [List.getLast?_cons, Option.mem_def.mp hname]
    rfl
  | case4 => cases hwalk
  | case6 base name hdot => exact absurd (hlast name rfl) hdot
  | case7 => cases hwalk
  | case8 base name hdot => exact absurd (hlast name rfl) hdot
  | case9 => cases hwalk

/-- What is asked of a path before its names are followed has nothing to do with the files. -/
theorem resolve_ok {names : List String} {place : Place} (h : t.resolve path names = .ok place)
    (t' : FileTree) (names' : List String) :
    t.walk (if path.startsWith "/" then [] else t.workingDirectory) names = .ok place ∧
    t'.resolve path names' =
      t'.walk (if path.startsWith "/" then [] else t'.workingDirectory) names' := by
  unfold resolve at h ⊢
  split at h
  · cases h
  · next hempty =>
    split at h
    · cases h
    · next hnul =>
      split at h
      · cases h
      · next hlong =>
        rw [if_neg hempty, if_neg hnul, if_neg hlong]
        exact ⟨h, rfl⟩

/-- A file is written where a path ends, and the path is not that of a directory. -/
theorem writeBytes_ok (h : t.writeBytes path content = .ok t') :
    isSlashed path = false ∧ ∃ place here, t.resolve path (names path) = .ok place ∧
      place.here? = some here ∧ t' = t.put here content := by
  cases hresolve : t.resolve path
      (if isSlashed path then (names path).dropLast ++ ["."] else names path) with
  | error err =>
    simp only [writeBytes, hresolve, bind, Except.bind] at h
    cases h
  | ok place =>
    simp only [writeBytes, hresolve, bind, Except.bind] at h
    have hplace : ∃ here, place.here? = some here ∧ t' = t.put here content := by
      cases place with
      | directory => cases h
      | file here _ => exact ⟨here, rfl, (Except.ok.inj h).symm⟩
      | vacant here => exact ⟨here, rfl, (Except.ok.inj h).symm⟩
    obtain ⟨here, hend, rfl⟩ := hplace
    cases hslashed : isSlashed path with
    | false =>
      rw [hslashed] at hresolve
      exact ⟨rfl, place, here, hresolve, hend, rfl⟩
    | true =>
      -- The names end with a dot then, so that they lead to a directory.
      rw [hslashed, if_pos rfl] at hresolve
      have hnone : place.here? = none := walk_dot (resolve_ok hresolve t []).1 (by simp)
      cases hend.symm.trans hnone

/-- **What was written is read.** -/
theorem readBytes_of_writeBytes (h : t.writeBytes path content = .ok t') :
    t'.readBytes path = .ok content := by
  obtain ⟨hslashed, place, here, hresolve, hend, rfl⟩ := writeBytes_ok h
  obtain ⟨hwalk, hread⟩ := resolve_ok hresolve (t.put here content) (names path)
  have hfile : (t.put here content).resolve path (names path) = .ok (.file here content) :=
    hread.trans (walk_put hwalk hend content)
  unfold readBytes
  rw [hfile, hslashed]
  rfl

theorem readText_of_writeBytes {text : String} (h : t.writeBytes path text.toUTF8 = .ok t') :
    t'.readText path = .ok text := by
  have hutf8 : String.fromUTF8? text.toUTF8 = some text := dif_pos text.isValidUTF8
  unfold readText
  simp only [readBytes_of_writeBytes h, bind, Except.bind, hutf8]

end FileTree

namespace Project.Document

variable {σ : Type} [Journaling σ] {d e d' : Document}

/-! ## The three fixes -/

theorem displayTitle_titled (d : Document) : d.titled.title? = some d.displayTitle := by
  unfold titled displayTitle
  cases htitle : d.title? with
  | some title => exact htitle
  | none =>
    have hset : (d.setSection titleKey (.text unknownTitle)).root.find? titleKey =
        some (.text unknownTitle) := (section?_setSection ..).trans (if_pos rfl)
    rw [title?, hset]
    rfl

theorem version?_stamp (d : Document) (value : String) :
    (d.stamp versionKey value).version? = some value := by
  unfold stamp
  split
  · next h => exact h
  · rw [version?, Members.find?_insert, if_pos rfl]
    rfl

/-- A flow belongs to the section it is in. -/
theorem HasFlow.congr {members flow : Members} (h : d.HasFlow members flow)
    (hsection : e.section? sectionKey = d.section? sectionKey) : e.HasFlow members flow :=
  ⟨hsection.trans h.stored, h.flow⟩

/-- The conversion changes the section only. -/
theorem section?_upgrade {converted : Bool} (h : d.upgrade = .ok (converted, d')) {key : String}
    (hkey : key ≠ sectionKey) : d'.section? key = d.section? key := by
  obtain ⟨-, rfl⟩ | ⟨members, flow, hflow, -, rfl⟩ := upgrade_ok h
  · rfl
  · exact hflow.converted.rootKept key hkey

/-- **The conversion goes by the section alone.** -/
theorem upgrade_congr (h : e.section? sectionKey = d.section? sectionKey) :
    (∃ err, d.upgrade = .error err ∧ e.upgrade = .error err) ∨
    ∃ converted d' e', d.upgrade = .ok (converted, d') ∧ e.upgrade = .ok (converted, e') ∧
      e'.section? sectionKey = d'.section? sectionKey := by
  obtain habsent | ⟨stored, hstored, hnone⟩ | ⟨members, flow, hflow, hcases⟩ := upgrade_cases d
  · exact .inr ⟨_, _, _, upgrade_of_absent habsent, upgrade_of_absent (h.trans habsent), h⟩
  · exact .inl ⟨_, upgrade_of_misshapen hstored hnone, upgrade_of_misshapen (h.trans hstored)
      fun members flow hflow => hnone members flow (hflow.congr h.symm)⟩
  · have hflow' : e.HasFlow members flow := hflow.congr h
    rcases hcases with hcurrent | ⟨hlegacy, key, hkey⟩ | ⟨hlegacy, husable⟩
    · exact .inr ⟨_, _, _, hflow.upgrade_of_current hcurrent, hflow'.upgrade_of_current hcurrent, h⟩
    · exact .inl ⟨_, hflow.upgrade_of_unusable hlegacy hkey,
        hflow'.upgrade_of_unusable hlegacy hkey⟩
    · exact .inr ⟨_, _, _, hflow.upgrade_of_usable hlegacy husable,
        hflow'.upgrade_of_usable hlegacy husable,
        (HasFlow.withFlow ..).stored.trans (HasFlow.withFlow ..).stored.symm⟩

/-- Nothing is done to a document that has a title and the present version, and nothing to
convert. -/
theorem fix_current {title : String} (htitle : d.title? = some title)
    (hupgrade : d.upgrade = .ok (false, d)) (hversion : d.version? = some currentVersion) (s : σ) :
    d.fix s = (.ok (), d, s) := by
  have hstamp : d.stamp versionKey currentVersion = d := if_pos hversion
  unfold fix fixTitle
  simp only [htitle, hupgrade, hstamp]
  rfl

/-! ## Written and read -/

/-- **A document that needs nothing done to it comes back from a file as it was**, provided that the
reader understands its text. -/
theorem load_of_save (hfix : ∀ s : σ, d.fix s = (.ok (), d, s))
    (hfaithful : Value.read d.text = .ok (.object d.root)) {path : String} {s s' : σ}
    {t t' : FileTree} (hsaved : (d.save path s).run t = ((.ok (), s'), t')) (s₁ : σ) :
    (load path s₁).run t' = ((.ok d, log .info s!"Project: loading {path}" s₁), t') := by
  have hwritten : t.writeBytes path d.text.toUTF8 = .ok t' := by
    cases hwrite : t.writeBytes path d.text.toUTF8 with
    | error err =>
      have hrun : (d.save path s).run t = ((.error (.file err), s), t) := by
        show FileTask.run (.write path d.text _) t = _
        simp only [FileTask.run, hwrite]
        rfl
      cases hrun.symm.trans hsaved
    | ok written =>
      have hrun : (d.save path s).run t = ((.ok (), log .info s!"Project: saved {path}" s), written)
          := by
        show FileTask.run (.write path d.text _) t = _
        simp only [FileTask.run, hwrite]
        rfl
      rw [(Prod.mk.inj (hrun.symm.trans hsaved)).2]
  have hread : t'.readText path = .ok d.text := FileTree.readText_of_writeBytes hwritten
  have hof : ∀ s : σ, ofFile (.ok d.text) s = (.ok d, s) := by
    intro s
    unfold ofFile ofText
    simp only [hfaithful, ofValue, hfix]
  show FileTask.run (.read path _) t' = _
  simp only [FileTask.run, hread]
  show (ofFile (.ok d.text) _, t') = _
  rw [hof]

/-! ## What comes out -/

/-- A document `d'` is what comes out when the document `d` is brought up to date. -/
structure Settled (d d' : Document) : Prop where
  /-- The title is the one of before, if that was a text. -/
  title : d'.title? = some (d.title?.getD unknownTitle)
  version : d'.version? = some currentVersion
  kept : ∀ key, key ≠ titleKey → key ≠ versionKey → key ≠ sectionKey →
    d'.section? key = d.section? key
  /-- The watering section is what the conversion makes of that of `d`, which is the same section
  if there is nothing to convert. -/
  converted : ∃ converted u, d.upgrade = .ok (converted, u) ∧
    d'.section? sectionKey = u.section? sectionKey ∧
    (converted = false → d'.section? sectionKey = d.section? sectionKey) ∧
    (converted = true → ∃ members flow members' flow', d.Converted u members flow members' flow')
  /-- The members of every object stay in order. -/
  inOrder : (Value.object d.root).InOrder → (Value.object d'.root).InOrder
  /-- Nothing is left to do, and nothing to note. -/
  again : ∀ {σ : Type} [Journaling σ] (s : σ), d'.fix s = (.ok (), d', s)
  /-- It comes back as it is from a file, if the reader understands what is written there. -/
  readBack : Value.read d'.text = .ok (.object d'.root) →
    ∀ {σ : Type} [Journaling σ] (path : String) (s s' s₁ : σ) (t t' : FileTree),
      (d'.save path s).run t = ((.ok (), s'), t') →
      (load path s₁).run t' = ((.ok d', log .info s!"Project: loading {path}" s₁), t')

/-- A document `d'` is what is left of the document `d` when bringing it up to date has failed. -/
structure Abandoned (d d' : Document) : Prop where
  /-- The version, the section and all else is as it was. -/
  kept : ∀ key, key ≠ titleKey → d'.section? key = d.section? key
  /-- So is the title, if it was a text. -/
  untouched : d.title? ≠ none → d' = d
  filled : d.title? = none → d' = d.setSection titleKey (.text unknownTitle)

/-- What bringing a document up to date does. -/
structure Settles (d : Document) (s : σ) : Prop where
  /-- It fails exactly if the conversion does, and for the same reason. -/
  outcome : (d.fix s).1 = d.upgrade.map fun _ => ()
  ok : (d.fix s).1 = .ok () → d.Settled (d.fix s).2.1
  error : ∀ err, (d.fix s).1 = .error err → d.Abandoned (d.fix s).2.1

theorem abandoned_titled (d : Document) : d.Abandoned d.titled where
  kept := fun _ hkey => section?_titled d hkey
  untouched := by
    intro hsome
    unfold titled
    cases htitle : d.title? with
    | some _ => rfl
    | none => exact absurd htitle hsome
  filled := by
    intro hnone
    unfold titled
    rw [hnone]

theorem inOrder_titled (h : (Value.object d.root).InOrder) :
    (Value.object d.titled.root).InOrder := by
  unfold titled
  split
  · exact h
  · exact h.insert trivial

theorem inOrder_stamp (h : (Value.object d.root).InOrder) (value : String) :
    (Value.object (d.stamp versionKey value).root).InOrder := by
  unfold stamp
  split
  · exact h
  · exact h.insert trivial

theorem inOrder_upgrade {converted : Bool} (hupgrade : d.upgrade = .ok (converted, d'))
    (h : (Value.object d.root).InOrder) : (Value.object d'.root).InOrder := by
  obtain ⟨-, rfl⟩ | ⟨members, flow, hflow, -, rfl⟩ := upgrade_ok hupgrade
  · exact h
  · exact hflow.converted.inOrder h

/-- **A document that was brought up to date.** Here `u` is what the conversion makes of the
document itself, and `e` what it makes of the document with its title filled in. -/
theorem settled_stamp {converted : Bool} {u : Document} (hu : d.upgrade = .ok (converted, u))
    (he : d.titled.upgrade = .ok (converted, e))
    (hsame : e.section? sectionKey = u.section? sectionKey) :
    d.Settled (e.stamp versionKey currentVersion) := by
  have htitle : (e.stamp versionKey currentVersion).title? = some d.displayTitle := by
    have hroot : (e.stamp versionKey currentVersion).section? titleKey =
        d.titled.section? titleKey :=
      (section?_stamp e versionKey currentVersion (by decide)).trans
        (section?_upgrade he (by decide))
    exact (congrArg (·.bind Value.text?) hroot).trans (displayTitle_titled d)
  have hversion := version?_stamp e currentVersion
  have hsection : (e.stamp versionKey currentVersion).section? sectionKey =
      u.section? sectionKey :=
    (section?_stamp e versionKey currentVersion (by decide)).trans hsame
  -- Giving the title and stamping the version leave nothing to convert, as the conversion does.
  have hagain : (e.stamp versionKey currentVersion).upgrade =
      .ok (false, e.stamp versionKey currentVersion) := by
    obtain ⟨err, herr, -⟩ | ⟨c, u', e', hu', he', -⟩ := upgrade_congr hsection
    · cases herr.symm.trans (upgrade_again hu)
    · obtain ⟨rfl, rfl⟩ := Prod.mk.inj (Except.ok.inj (hu'.symm.trans (upgrade_again hu)))
      obtain ⟨-, rfl⟩ | ⟨-, -, -, hconverted, -⟩ := upgrade_ok he'
      · exact he'
      · cases hconverted
  have hfix : ∀ {σ : Type} [Journaling σ] (s : σ),
      (e.stamp versionKey currentVersion).fix s =
        (.ok (), e.stamp versionKey currentVersion, s) :=
    fun s => fix_current htitle hagain hversion s
  exact {
    title := htitle
    version := hversion
    kept := fun key htitle hversion hsection =>
      (section?_stamp e versionKey currentVersion hversion).trans
        ((section?_upgrade he hsection).trans (section?_titled d htitle))
    converted := by
      refine ⟨converted, u, hu, hsection, ?_, ?_⟩
      · rintro rfl
        obtain ⟨-, rfl⟩ | ⟨-, -, -, hconverted, -⟩ := upgrade_ok hu
        · exact hsection
        · cases hconverted
      · rintro rfl
        obtain ⟨hconverted, -⟩ | ⟨members, flow, hflow, -, rfl⟩ := upgrade_ok hu
        · cases hconverted
        · exact ⟨members, flow, _, _, hflow.converted⟩
    inOrder := fun h => inOrder_stamp (inOrder_upgrade he (inOrder_titled h)) currentVersion
    again := hfix
    readBack := fun hfaithful _ _ _ _ _ s₁ _ _ hsaved => load_of_save hfix hfaithful hsaved s₁ }

/-- **What bringing any document up to date does.** -/
theorem settles (d : Document) (s : σ) : d.Settles s := by
  have hsection : d.titled.section? sectionKey = d.section? sectionKey := by
    rw [section?_titled d (by decide)]
  obtain ⟨s', -, ⟨err, hfixed, hfix⟩ | ⟨d', hfixed, hfix⟩⟩ := fix_eq d s
  · obtain ⟨err', herr, herr'⟩ | ⟨c, u, e, -, he, -⟩ := upgrade_congr hsection
    · rw [fixed, herr'] at hfixed
      obtain rfl := Except.error.inj hfixed
      refine ⟨by rw [hfix, herr]; rfl, fun hok => ?_, fun _ _ => ?_⟩
      · rw [hfix] at hok
        cases hok
      · rw [hfix]
        exact abandoned_titled d
    · rw [fixed, he] at hfixed
      cases hfixed
  · obtain ⟨err, -, herr⟩ | ⟨c, u, e, hu, he, hsame⟩ := upgrade_congr hsection
    · rw [fixed, herr] at hfixed
      cases hfixed
    · rw [fixed, he] at hfixed
      obtain rfl := Except.ok.inj hfixed
      refine ⟨by rw [hfix, hu]; rfl, fun _ => ?_, fun err herr => ?_⟩
      · rw [hfix]
        exact settled_stamp hu he hsame
      · rw [hfix] at herr
        cases herr

/-- A document whose title is no text. -/
def numbered : Document := ⟨[("title", .number (.whole 7)), ("zone", .text "north")]⟩

/-- What comes out of it. -/
def renamed : Document :=
  ⟨[("title", .text "unknown-project"), ("version", .text "0.3.0"), ("zone", .text "north")]⟩

/-- Members that are texts are known by their names and texts. -/
theorem eq_of_texts {ms : Members} {texts : List (String × String)}
    (h : ms.map (fun m => (m.1, m.2.text?)) = texts.map fun t => (t.1, some t.2)) :
    ms = texts.map fun t => (t.1, .text t.2) := by
  induction ms generalizing texts with
  | nil => rw [List.map_eq_nil_iff.mp h.symm, List.map_nil]
  | cons m rest ih =>
    cases texts with
    | nil => cases h
    | cons t more =>
      obtain ⟨name, v⟩ := m
      rw [List.map_cons, List.map_cons, List.cons.injEq, Prod.mk.injEq] at h
      obtain ⟨⟨rfl, htext⟩, hrest⟩ := h
      cases v with
      | text value =>
        obtain rfl := Option.some.inj htext
        rw [List.map_cons, ih hrest]
      | _ => cases htext

/-- The reader understands what is written of it. -/
theorem read_renamed : Value.read renamed.text = .ok (.object renamed.root) := by
  have hread : ((Value.read renamed.text).toOption.bind Value.members?).map
      (List.map fun m => (m.1, m.2.text?)) = some
        ([("title", "unknown-project"), ("version", "0.3.0"), ("zone", "north")].map fun t =>
          (t.1, some t.2)) := by decide +kernel
  obtain ⟨ms, hmembers, htexts⟩ := Option.map_eq_some_iff.mp hread
  obtain ⟨v, hv, hms⟩ := Option.bind_eq_some_iff.mp hmembers
  cases v with
  | object members =>
    obtain rfl := Option.some.inj hms
    rw [World.eq_ok_of_toOption hv, eq_of_texts htexts]
    rfl
  | _ => cases hms

/-- It comes back as it is from any file that it was written to. -/
theorem renamed_for_good : (numbered.fix ([] : List Effect)).2.1 = renamed ∧
    numbered.Settled renamed ∧ Value.read renamed.text = .ok (.object renamed.root) :=
  ⟨rfl, (settles numbered ([] : List Effect)).ok rfl, read_renamed⟩

end Project.Document

end Irrigation
