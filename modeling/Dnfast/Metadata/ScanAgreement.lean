import Dnfast.Metadata.ScanLexing

/-! # The scanner and the parser

The parser reads a document event by event and the scanner byte by byte. They agree on every document
the parser accepts unless it has one of the constructs that the scanner reads differently: an
empty-element tag `<file/>` or `<package/>`, a comment that begins with `>` or `->`, a CDATA section
with an end of a tag in it, white space in the attribute of a package, or a path that is too long before
its references are resolved. -/

namespace Dnfast.Metadata

/-- The scanner and the parser read the event as the same. -/
def Event.Plain : Event → Prop
  | .start tag => tag.name = "package".asBytes →
    ∀ x ∈ tag.attributes, x.key = "pkgid".asBytes → normalizeWhitespace x.raw = x.raw
  | .empty tag => tag.name ≠ "file".asBytes ∧ tag.name ≠ "package".asBytes
  | .comment body => ¬ ">".asBytes <+: body ∧ ¬ "->".asBytes <+: body
  | .cData body => body.foldlM quoteByte none = some none
  | _ => True

/-- The length of the raw text of the file that is open, after an event. -/
def Event.lengthAfter (length : Option Nat) : Event → Option Nat
  | .start tag => if tag.name = "file".asBytes then some 0 else length
  | .close name _ => if name = "file".asBytes then none else length
  | .text raw => length.map (· + raw.length)
  | .generalRef name => length.map (· + (name.length + 2))
  | _ => length

/-- The raw text of no file is over the limit. -/
def Within : Option Nat → List Event → Prop
  | _, [] => True
  | length, e :: events =>
    (∀ n ∈ e.lengthAfter length, n ≤ maxXmlTextBytes) ∧ Within (e.lengthAfter length) events

instance : (e : Event) → Decidable e.Plain
  | .start tag => inferInstanceAs (Decidable (tag.name = "package".asBytes →
      ∀ x ∈ tag.attributes, x.key = "pkgid".asBytes → normalizeWhitespace x.raw = x.raw))
  | .empty tag =>
    inferInstanceAs (Decidable (tag.name ≠ "file".asBytes ∧ tag.name ≠ "package".asBytes))
  | .comment body =>
    inferInstanceAs (Decidable (¬ ">".asBytes <+: body ∧ ¬ "->".asBytes <+: body))
  | .cData body => inferInstanceAs (Decidable (body.foldlM quoteByte none = some none))
  | .close .. | .text _ | .generalRef _ | .pi _ | .decl _ | .docType _ => isTrue trivial

instance decidableWithin : (length : Option Nat) → (events : List Event) →
    Decidable (Within length events)
  | _, [] => isTrue trivial
  | length, e :: events =>
    have := decidableWithin (e.lengthAfter length) events
    inferInstanceAs (Decidable (_ ∧ _))

/-- The scanner and the parser read the document as the same. -/
structure Document.Plain (d : Document) : Prop where
  events : ∀ e ∈ d.events, e.Plain
  within : Within none d.events

variable {q : QuickXml} {target : String} {a a' : Scan} {s s' : State}

/-! ## The parser -/

/-- What matters here of a state: the package with its files, the text of the file, the packages. -/
structure View where
  current : Option (String × List String)
  fileText : Option String
  packages : List (String × List String)

def State.view (s : State) : View where
  current := s.current.map fun b => (b.packageId, b.files)
  fileText := s.fileText
  packages := s.packages.map fun p => (p.packageId, p.files)

/-- A file is open inside a package only, and nothing is open after the root. -/
structure State.Coherent (s : State) : Prop where
  file : s.view.fileText.isSome → s.view.current.isSome
  root : s.rootClosed → s.view.current = none

/-- An element named `file` is open that is not read as a file. -/
def State.Stray (s : State) : Prop :=
  (if s.fileText.isSome then 1 else 0) < s.opened.count "file".asBytes

/-- What a start tag does. -/
inductive Started (q : QuickXml) (tag : Tag) (s s' : State) : Prop
  | package (packageId : String) (hname : tag.name = "package".asBytes)
      (hid : required q tag "pkgid" = .ok packageId) (hnone : s.current = none)
      (hview : s'.view = { s.view with current := some (packageId, []) })
  | file (hname : tag.name = "file".asBytes) (hcurrent : s.current.isSome) (hnone : s.fileText = none)
      (hview : s'.view = { s.view with fileText := some "" })
  | stray (hname : tag.name = "file".asBytes) (hnone : s.current = none) (hview : s'.view = s.view)
  | other (hpackage : tag.name ≠ "package".asBytes) (hfile : tag.name ≠ "file".asBytes)
      (hview : s'.view = s.view)

theorem started_of_start {tag : Tag} (h : s.start q tag = .ok s') :
    Started q tag s s' ∧ s'.opened = s.opened ∧ s.rootClosed = false ∧ s'.rootClosed = false := by
  rw [State.start, Except.check_bind_eq_ok, refuse, Except.refuseIf_eq_ok, Bool.not_eq_true] at h
  obtain ⟨hroot, h⟩ := h
  split at h
  · rw [Except.check_bind_eq_ok, Except.check_bind_eq_ok, State.startElement] at h
    obtain ⟨-, -, h⟩ := h
    split at h
    · next hname =>
      simp only [State.startPackage, refuse, Except.refuseIf_eq_ok, Except.bind_eq_ok,
        Except.pure_eq_ok] at h
      obtain ⟨_, hnone, packageId, hid, name, -, arch, -, rfl⟩ := h
      refine ⟨.package packageId hname hid (by simpa using hnone) rfl, rfl, hroot, hroot⟩
    · next hpackage =>
      split at h
      · next hfile =>
        simp only [State.startFile, refuse, Except.refuseIf_eq_ok, Except.bind_eq_ok,
          Except.pure_eq_ok] at h
        obtain ⟨_, hnone, rfl⟩ := h
        exact ⟨.file hfile.1 hfile.2 (by simpa using hnone) rfl, rfl, hroot, hroot⟩
      · next hfile =>
        cases h
        refine ⟨?_, rfl, hroot, hroot⟩
        by_cases hname : tag.name = "file".asBytes
        · exact .stray hname (by simpa [hname] using hfile) rfl
        · exact .other hpackage hname rfl
  · simp only [State.startRoot, refuse, Except.refuseIf_eq_ok, Except.bind_eq_ok,
      Except.pure_eq_ok, not_not] at h
    obtain ⟨_, hname, _, -, _, -, _, -, _, -, _, -, rfl⟩ := h
    refine ⟨.other ?_ ?_ rfl, rfl, hroot, hroot⟩
    · rw [hname]
      decide
    · rw [hname]
      decide

/-- What an end tag does. -/
inductive Closed (name : List UInt8) (s s' : State) : Prop
  | file (value packageId : String) (files : List String) (hname : name = "file".asBytes)
      (htext : s.fileText = some value) (hcurrent : s.view.current = some (packageId, files))
      (hview : s'.view = { s.view with
        fileText := none, current := some (packageId, files ++ [value]) })
  | package (packageId : String) (files : List String) (hname : name = "package".asBytes)
      (hnone : s.fileText = none) (hcurrent : s.view.current = some (packageId, files))
      (hview : s'.view = { s.view with
        current := none, packages := s.view.packages ++ [(packageId, files)] })
  | other (hpackage : name ≠ "package".asBytes) (hfile : name ≠ "file".asBytes)
      (hview : s'.view = s.view)

theorem closed_of_close {name : List UInt8} (h : s.close name = .ok s') :
    Closed name s s' ∧ s'.opened = s.opened ∧ s.rootClosed = false ∧
      (s'.rootClosed = true → s'.current = none) := by
  rw [State.close, Except.check_bind_eq_ok, refuse, Except.refuseIf_eq_ok, not_or,
    Bool.not_eq_true'] at h
  obtain ⟨⟨-, hroot⟩, h⟩ := h
  rw [Bool.not_eq_true] at hroot
  have hopen {s' : State} (heq : s'.rootClosed = s.rootClosed) (h : s'.rootClosed = true) :
      s'.current = none := by
    rw [heq, hroot] at h
    cases h
  split at h
  · next hname =>
    simp only [State.finishFile, Except.bind_eq_ok, Except.okOr_eq_ok, Except.pure_eq_ok] at h
    obtain ⟨value, htext, _, -, package, hcurrent, fileCount, -, paths, -, rfl⟩ := h
    refine ⟨.file value package.packageId package.files hname htext ?_ rfl, rfl, hroot, hopen rfl⟩
    rw [State.view, hcurrent]
    rfl
  · next hfile =>
    split at h
    · next hname =>
      simp only [State.finishPackage, refuse, Except.refuseIf_eq_ok, Except.bind_eq_ok,
        Except.okOr_eq_ok, Except.pure_eq_ok] at h
      obtain ⟨_, hnone, package, hcurrent, _, -, rfl⟩ := h
      refine ⟨.package package.packageId package.files hname (by simpa using hnone) ?_ ?_, rfl, hroot,
        hopen rfl⟩
      · rw [State.view, hcurrent]
        rfl
      · simp only [State.view, List.map_append]
        rfl
    · next hpackage =>
      split at h
      · simp only [State.finishRoot, refuse, Except.refuseIf_eq_ok, Except.bind_eq_ok,
          Except.pure_eq_ok] at h
        obtain ⟨_, hnone, rfl⟩ := h
        refine ⟨.other hpackage hfile rfl, rfl, hroot, fun _ => ?_⟩
        simpa using hnone
      · rw [Except.pure_eq_ok] at h
        subst h
        exact ⟨.other hpackage hfile rfl, rfl, hroot, hopen rfl⟩

/-- The other events change the text of the file at most. -/
theorem view_of_empty {tag : Tag} (h : s.empty q tag = .ok s') :
    s'.view = s.view ∧ s'.opened = s.opened ∧ s'.rootClosed = s.rootClosed := by
  simp only [State.empty, refuse, Except.check_bind_eq_ok] at h
  obtain ⟨-, -, -, h⟩ := h
  split at h
  · simp only [State.version, Except.bind_eq_ok, Except.okOr_eq_ok, Except.pure_eq_ok] at h
    obtain ⟨package, hcurrent, _, -, _, -, _, -, rfl⟩ := h
    refine ⟨?_, rfl, rfl⟩
    simp only [State.view, hcurrent]
    rfl
  · rw [Except.pure_eq_ok] at h
    subst h
    exact ⟨rfl, rfl, rfl⟩

/-- Raw text is added to the file that is open, decoded. -/
inductive Added (q : QuickXml) (raw : List UInt8) (s s' : State) : Prop
  | file (file value : String) (htext : s.fileText = some file)
      (hvalue : decodeRaw q raw = some value)
      (h : s' = { s with fileText := some (file ++ value) })
  | none (hnone : s.fileText = none) (h : s' = s)

theorem eq_of_appendFileText {value : String} (h : s.appendFileText value = .ok s') :
    ∃ file, s.fileText = some file ∧ s' = { s with fileText := some (file ++ value) } := by
  simp only [State.appendFileText, Except.bind_eq_ok, Except.okOr_eq_ok, Except.pure_eq_ok] at h
  obtain ⟨file, hfile, _, -, rfl⟩ := h
  exact ⟨file, hfile, rfl⟩

theorem eq_of_content (h : s.content = .ok s') : s' = s := by
  rw [State.content, Except.check_bind_eq_ok, Except.pure_eq_ok] at h
  exact h.2.symm

theorem added_of_text {raw : List UInt8} (h : s.text q raw = .ok s') : Added q raw s s' := by
  unfold State.text at h
  split at h
  · rw [Except.bind_eq_ok] at h
    obtain ⟨value, hvalue, h⟩ := h
    obtain ⟨file, hfile, rfl⟩ := eq_of_appendFileText h
    exact .file file value hfile (Except.okOr_eq_ok.mp hvalue) rfl
  · next hnone =>
    refine .none (by simpa using hnone) ?_
    split at h
    · rw [Except.bind_eq_ok] at h
      obtain ⟨_, -, h⟩ := h
      rw [Except.check_bind_eq_ok, Except.pure_eq_ok] at h
      exact h.2.symm
    · exact (Except.ok.inj h).symm

theorem added_of_reference {name : List UInt8} (h : s.reference q name = .ok s') :
    Added q (Byte.amp :: name ++ [Byte.semicolon]) s s' := by
  unfold State.reference at h
  split at h
  · rw [Except.bind_eq_ok] at h
    obtain ⟨value, hvalue, h⟩ := h
    obtain ⟨file, hfile, rfl⟩ := eq_of_appendFileText h
    exact .file file value hfile (decodeRaw_of_decodeReference hvalue) rfl
  · next hnone => exact .none (by simpa using hnone) (eq_of_content h)

/-- A stray element stays one: the end tag that would close it is refused. -/
theorem stray_of_event {e : Event} (h : s.event q e = .ok s') (hstray : s.Stray) : s'.Stray := by
  have hsame {s' : State} (hview : s'.view = s.view) (hopened : s'.opened = s.opened) :
      s'.Stray := by
    have htext : s'.fileText = s.fileText := congrArg View.fileText hview
    rw [State.Stray, htext, hopened]
    exact hstray
  have hadded {raw : List UInt8} (hadd : Added q raw s s') : s'.Stray := by
    rcases hadd with ⟨file, value, htext, -, rfl⟩ | ⟨-, rfl⟩
    · rw [State.Stray, htext] at hstray
      exact hstray
    · exact hstray
  rw [State.Stray] at hstray
  cases e with
  | start tag =>
    simp only [State.event, Except.bind_eq_ok, Except.pure_eq_ok] at h
    obtain ⟨s₁, h, rfl⟩ := h
    obtain ⟨hstarted, hopened, -, -⟩ := started_of_start h
    rw [State.Stray]
    simp only [hopened]
    rcases hstarted with ⟨_, hname, -, -, hview⟩ | ⟨hname, -, hnone, hview⟩ | ⟨hname, -, hview⟩ |
      ⟨-, hname, hview⟩ <;>
    have htext := congrArg View.fileText hview <;>
    simp only [State.view] at htext <;>
    rw [htext]
    · rw [hname, List.count_cons_of_ne (by decide)]
      exact hstray
    · rw [hname, List.count_cons_self]
      rw [hnone] at hstray
      simpa using hstray
    · rw [hname, List.count_cons_self]
      exact Nat.lt_succ_of_lt hstray
    · rw [List.count_cons_of_ne hname]
      exact hstray
  | close name trailing =>
    simp only [State.event, Except.check_bind_eq_ok, Except.refuseIf_eq_ok, not_not] at h
    obtain ⟨hhead, h⟩ := h
    obtain ⟨hclosed, hopened, -, -⟩ := closed_of_close h
    obtain ⟨rest, hrest⟩ : ∃ rest, s.opened = name :: rest := List.head?_eq_some_iff.mp hhead
    simp only [hrest, List.tail_cons] at hopened
    rw [hrest] at hstray
    rw [State.Stray, hopened]
    rcases hclosed with ⟨_, _, _, hname, htext, -, hview⟩ | ⟨_, _, hname, -, -, hview⟩ |
      ⟨-, hname, hview⟩ <;>
    have htext' := congrArg View.fileText hview <;>
    simp only [State.view] at htext' <;>
    rw [htext']
    · simp only at htext
      rw [hname, List.count_cons_self, htext] at hstray
      simpa using hstray
    · rw [hname, List.count_cons_of_ne (by decide)] at hstray
      exact hstray
    · rw [List.count_cons_of_ne hname] at hstray
      exact hstray
  | empty tag =>
    obtain ⟨hview, hopened, -⟩ := view_of_empty h
    exact hsame hview hopened
  | text raw => exact hadded (added_of_text h)
  | generalRef name => exact hadded (added_of_reference h)
  | comment body | pi body =>
    cases h
    exact hstray
  | cData body =>
    rw [eq_of_content h]
    exact hstray
  | decl body =>
    simp only [State.event, State.declaration, Except.check_bind_eq_ok, Except.pure_eq_ok] at h
    obtain ⟨-, rfl⟩ := h
    exact hstray
  | docType body => cases h

theorem stray_of_foldlM {events : List Event} (h : events.foldlM (State.event q) s = .ok s')
    (hstray : s.Stray) : s'.Stray :=
  Except.foldlM_invariant (P := State.Stray) (fun _ _ _ hs _ h => stray_of_event h hs) h hstray

theorem coherent_of_event {e : Event} (h : s.event q e = .ok s') (hs : s.Coherent) :
    s'.Coherent := by
  have hsame {s' : State} (hview : s'.view = s.view) (hroot : s'.rootClosed = s.rootClosed) :
      s'.Coherent := ⟨by rw [hview]; exact hs.file, by rw [hview, hroot]; exact hs.root⟩
  have hadded {raw : List UInt8} (hadd : Added q raw s s') : s'.Coherent := by
    rcases hadd with ⟨file, value, htext, -, rfl⟩ | ⟨-, rfl⟩
    · refine ⟨fun _ => ?_, hs.root⟩
      exact hs.file (by rw [State.view, htext]; rfl)
    · exact hs
  cases e with
  | start tag =>
    simp only [State.event, Except.bind_eq_ok, Except.pure_eq_ok] at h
    obtain ⟨s₁, h, rfl⟩ := h
    obtain ⟨hstarted, -, hroot, hroot'⟩ := started_of_start h
    have hopen : s₁.rootClosed = true → s₁.view.current = none := by
      rw [hroot']
      intro h
      cases h
    rcases hstarted with ⟨_, -, -, -, hview⟩ | ⟨-, hcurrent, -, hview⟩ | ⟨-, -, hview⟩ | ⟨-, -, hview⟩
    · refine ⟨fun _ => ?_, hopen⟩
      exact congrArg (·.current.isSome) hview
    · refine ⟨fun _ => ?_, hopen⟩
      have hsome := congrArg (·.current.isSome) hview
      exact hsome.trans (by simpa [State.view] using hcurrent)
    · exact hsame hview (hroot'.trans hroot.symm)
    · exact hsame hview (hroot'.trans hroot.symm)
  | close name trailing =>
    simp only [State.event, Except.check_bind_eq_ok] at h
    obtain ⟨-, h⟩ := h
    obtain ⟨hclosed, -, hroot, hroot'⟩ := closed_of_close h
    have hnone : s'.rootClosed = true → s'.view.current = none := by
      intro hclosed
      rw [State.view, hroot' hclosed]
      rfl
    rcases hclosed with ⟨_, _, _, -, -, -, hview⟩ | ⟨_, _, -, htext, -, hview⟩ | ⟨-, -, hview⟩
    · refine ⟨fun _ => ?_, hnone⟩
      exact congrArg (·.current.isSome) hview
    · refine ⟨fun hsome => ?_, hnone⟩
      rw [hview] at hsome
      simp only [State.view] at hsome htext
      rw [htext] at hsome
      cases hsome
    · refine ⟨?_, hnone⟩
      rw [hview]
      exact hs.file
  | empty tag =>
    obtain ⟨hview, -, hroot⟩ := view_of_empty h
    exact hsame hview hroot
  | text raw => exact hadded (added_of_text h)
  | generalRef name => exact hadded (added_of_reference h)
  | comment body | pi body =>
    cases h
    exact hs
  | cData body =>
    rw [eq_of_content h]
    exact hs
  | decl body =>
    simp only [State.event, State.declaration, Except.check_bind_eq_ok, Except.pure_eq_ok] at h
    obtain ⟨-, rfl⟩ := h
    exact hsame rfl rfl
  | docType body => cases h

/-! ## The simulation -/

/-- The machine has what the parser has read. -/
structure Agrees (q : QuickXml) (target : String) (v : View) (a : Scan) : Prop where
  mode : a.mode = .text
  packageId : a.packageId = v.current.map Prod.fst
  raw : a.raw.map (decodeRaw q) = v.fileText.map some
  providers : ∀ id, id ∈ a.providers ↔
    ∃ files, ((id, files) ∈ v.packages ∨ v.current = some (id, files)) ∧ target ∈ files
  limit : ∀ raw ∈ a.raw, raw.length ≤ maxXmlTextBytes

/-- Text between tags. -/
theorem exists_foldlM_addText {raw : List UInt8} (hraw : Byte.lt ∉ raw) (hadd : Added q raw s s')
    (hlimit : ∀ n ∈ (a.raw.map List.length).map (· + raw.length), n ≤ maxXmlTextBytes)
    (hs : Agrees q target s.view a) :
    ∃ a', raw.foldlM (Scan.byte q target) a = some a' ∧ Agrees q target s'.view a' ∧
      a'.raw.map List.length = (a.raw.map List.length).map (· + raw.length) := by
  rw [foldlM_byte_text hs.mode hraw hs.limit]
  have hagree := hs.raw
  cases hcase : a.raw with
  | none =>
    rw [hcase] at hagree
    rcases hadd with ⟨file, value, htext, -, rfl⟩ | ⟨-, rfl⟩
    · simp only [State.view, htext] at hagree
      cases hagree
    · refine ⟨a, ?_, hs, by rw [hcase]; rfl⟩
      rw [Scan.addText, hcase]
  | some r =>
    rw [hcase] at hagree hlimit
    have hle : r.length + raw.length ≤ maxXmlTextBytes := hlimit _ rfl
    rcases hadd with ⟨file, value, htext, hvalue, rfl⟩ | ⟨hnone, rfl⟩
    · simp only [State.view, htext, Option.map_some, Option.some.injEq] at hagree
      refine ⟨{ a with raw := some (r ++ raw) }, ?_, ⟨hs.mode, hs.packageId, ?_, hs.providers, ?_⟩,
        by simp⟩
      · rw [Scan.addText, hcase]
        exact if_pos hle
      · exact congrArg some (decodeRaw_append hagree hvalue)
      · intro raw' hraw'
        cases hraw'
        rwa [List.length_append]
    · simp only [State.view, hnone] at hagree
      cases hagree

/-- What one event does to the machine. -/
def Simulates (q : QuickXml) (target : String) (e : Event) (s' : State) (a : Scan) : Prop :=
  ∃ a', e.render.foldlM (Scan.byte q target) a = some a' ∧ Agrees q target s'.view a' ∧
    a'.raw.map List.length = e.lengthAfter (a.raw.map List.length)

theorem simulates_start {tag : Tag} (htag : tag.WellFormed) (hplain : (Event.start tag).Plain)
    (hstarted : Started q tag s s') (hstray : tag.name = "file".asBytes → s.current.isSome)
    (hs : Agrees q target s.view a) : Simulates q target (.start tag) s' a := by
  have hends : Ends (tag.attributes.flatMap (·.render) ++ tag.trailing) :=
    head_attributes htag.attributes (fun b hb => Or.inl hb) (ends_of_isWhitespace htag.trailing)
  have hrender : tag.render = tag.name ++ (tag.attributes.flatMap (·.render) ++ tag.trailing) :=
    List.append_assoc _ _ _
  have hquote := foldlM_quoteByte_tag htag
  rw [hrender] at hquote
  have hbytes := @foldlM_byte_element q target a _ _ hs.mode htag.name_ne htag.name
    hends hquote
  rw [← hrender] at hbytes
  rcases hstarted with ⟨packageId, hname, hid, hnone, hview⟩ | ⟨hname, hcurrent, hnone, hview⟩ |
    ⟨hname, hnone, -⟩ | ⟨hpackage, hfile, hview⟩
  · rw [if_pos hname, requiredRawAttribute_of_required htag (hplain hname) hid] at hbytes
    refine ⟨_, hbytes, ?_, ?_⟩
    · rw [hview]
      refine ⟨hs.mode, rfl, hs.raw, fun id => ?_, hs.limit⟩
      have hcurrent : s.view.current = none := by rw [State.view, hnone]; rfl
      rw [hs.providers, hcurrent]
      refine exists_congr fun files => and_congr_left fun htarget => or_congr_right ?_
      refine iff_of_false nofun fun heq => ?_
      cases heq
      cases htarget
    · rw [Event.lengthAfter, if_neg (by rw [hname]; decide)]
  · have hne : tag.name ≠ "package".asBytes := by rw [hname]; decide
    rw [if_neg hne, if_pos hname] at hbytes
    refine ⟨_, hbytes, ?_, ?_⟩
    · rw [hview]
      refine ⟨hs.mode, hs.packageId, ?_, hs.providers, ?_⟩
      · exact congrArg some decodeRaw_nil
      · intro raw hraw
        cases hraw
        exact Nat.zero_le _
    · rw [Event.lengthAfter, if_pos hname]
      rfl
  · have hsome := hstray hname
    rw [hnone] at hsome
    cases hsome
  · rw [if_neg hpackage, if_neg hfile] at hbytes
    refine ⟨a, hbytes, by rw [hview]; exact hs, ?_⟩
    rw [Event.lengthAfter, if_neg hfile]

theorem simulates_empty {tag : Tag} (htag : tag.WellFormed) (hplain : (Event.empty tag).Plain)
    (hview : s'.view = s.view) (hs : Agrees q target s.view a) :
    Simulates q target (.empty tag) s' a := by
  have hends : Ends (tag.attributes.flatMap (·.render) ++ (tag.trailing ++ [Byte.slash])) := by
    refine head_attributes htag.attributes (fun b hb => Or.inl hb) fun b hb => ?_
    cases htrailing : tag.trailing with
    | nil =>
      rw [htrailing] at hb
      cases hb
      exact Or.inr rfl
    | cons first trailing =>
      rw [htrailing] at hb
      cases hb
      exact Or.inl (htag.trailing _ (htrailing ▸ List.mem_cons_self))
  have hquote := foldlM_quoteByte_append (foldlM_quoteByte_tag htag)
    (show [Byte.slash].foldlM quoteByte none = some none from rfl)
  rw [Tag.render, List.append_assoc, List.append_assoc] at hquote
  have hbytes := @foldlM_byte_element q target a _ _ hs.mode htag.name_ne htag.name hends hquote
  rw [if_neg hplain.2, if_neg hplain.1] at hbytes
  refine ⟨a, ?_, by rw [hview]; exact hs, rfl⟩
  rw [← hbytes, Event.render, Tag.render]
  simp only [List.cons_append, List.append_assoc, List.nil_append]

theorem mem_view {id packageId : String} {files : List String}
    {packages : List (String × List String)} :
    (∃ files', ((id, files') ∈ packages ∨ some (packageId, files) = some (id, files')) ∧
        target ∈ files') ↔
      (∃ files', (id, files') ∈ packages ∧ target ∈ files') ∨ id = packageId ∧ target ∈ files := by
  constructor
  · rintro ⟨files', hmem | heq, htarget⟩
    · exact Or.inl ⟨files', hmem, htarget⟩
    · cases heq
      exact Or.inr ⟨rfl, htarget⟩
  · rintro (⟨files', hmem, htarget⟩ | ⟨rfl, htarget⟩)
    · exact ⟨files', Or.inl hmem, htarget⟩
    · exact ⟨files, Or.inr rfl, htarget⟩

theorem simulates_close {name trailing : List UInt8}
    (hevent : (Event.close name trailing).WellFormed) (hclosed : Closed name s s')
    (hs : Agrees q target s.view a) : Simulates q target (.close name trailing) s' a := by
  obtain ⟨-, hname, htrailing⟩ := hevent
  have hbytes := @foldlM_byte_closing q target a _ _ hs.mode hname htrailing
  rcases hclosed with ⟨value, packageId, files, rfl, htext, hcurrent, hview⟩ |
    ⟨packageId, files, rfl, hnone, hcurrent, hview⟩ | ⟨hpackage, hfile, hview⟩
  · rw [if_neg (by decide), if_pos rfl] at hbytes
    have hagree := hs.raw
    have hpackage := hs.packageId
    rw [hcurrent] at hpackage
    simp only [State.view, htext, Option.map_some] at hagree
    obtain ⟨raw, hraw, hvalue⟩ := Option.map_eq_some_iff.mp hagree
    rw [Scan.endFile, hraw] at hbytes
    simp only [hvalue, Option.bind_eq_bind, Option.bind_some, hpackage, Option.map_some] at hbytes
    by_cases htarget : value = target
    · rw [if_pos htarget] at hbytes
      refine ⟨_, hbytes, ?_, by rw [Event.lengthAfter, if_pos rfl]; rfl⟩
      rw [hview]
      refine ⟨hs.mode, rfl, rfl, fun id => ?_, nofun⟩
      rw [List.mem_append, hs.providers, hcurrent, mem_view, mem_view]
      simp only [List.mem_append, List.mem_singleton, htarget, or_true, and_true, or_assoc]
      exact or_congr_right ⟨fun h => h.elim And.left fun h => h, Or.inr⟩
    · rw [if_neg htarget] at hbytes
      refine ⟨_, hbytes, ?_, by rw [Event.lengthAfter, if_pos rfl]; rfl⟩
      rw [hview]
      refine ⟨hs.mode, rfl, rfl, fun id => ?_, nofun⟩
      rw [hs.providers, hcurrent, mem_view, mem_view]
      simp [Ne.symm htarget]
  · rw [if_pos rfl] at hbytes
    refine ⟨_, hbytes, ?_, ?_⟩
    · rw [hview]
      refine ⟨hs.mode, rfl, hs.raw, fun id => ?_, hs.limit⟩
      rw [hs.providers, hcurrent]
      refine exists_congr fun files' => and_congr_left fun htarget => ?_
      simp [eq_comm]
    · rw [Event.lengthAfter, if_neg (by decide)]
  · rw [if_neg hpackage, if_neg hfile] at hbytes
    refine ⟨a, hbytes, by rw [hview]; exact hs, ?_⟩
    rw [Event.lengthAfter, if_neg hfile]

/-- A tag `<file>` outside of a package is never closed. -/
theorem current_isSome_of_file {tag : Tag} (hstarted : Started q tag s s') (hcoherent : s.Coherent)
    (hstray : ¬ State.Stray { s' with opened := tag.name :: s'.opened })
    (hname : tag.name = "file".asBytes) : s.current.isSome := by
  rcases hstarted with ⟨_, hpackage, -, -, -⟩ | ⟨-, hcurrent, -, -⟩ | ⟨-, hnone, hview⟩ | ⟨-, hfile, -⟩
  · rw [hname] at hpackage
    exact absurd hpackage (by decide)
  · exact hcurrent
  · have htext : s.fileText = none := by
      cases htext : s.fileText with
      | none => rfl
      | some text =>
        have hsome := hcoherent.file (by rw [State.view, htext]; rfl)
        rw [State.view, hnone] at hsome
        cases hsome
    have htext' : s'.fileText = none := (congrArg View.fileText hview).trans htext
    refine absurd ?_ hstray
    simp only [State.Stray, htext', hname, List.count_cons_self]
    exact Nat.succ_pos _
  · exact absurd hname hfile

theorem not_infix_comment {body : List UInt8} (he : (Event.comment body).WellFormed)
    (hplain : (Event.comment body).Plain) :
    ¬ "-->".asBytes <:+: "--".asBytes ++ (body ++ "--".asBytes) := by
  obtain ⟨hgt, hdash⟩ := hplain
  rw [show "--".asBytes ++ (body ++ "--".asBytes) = 45 :: 45 :: (body ++ "--".asBytes) from rfl,
    List.infix_cons_iff, List.infix_cons_iff]
  rintro (h | h | h)
  · apply hgt
    have htail := (List.cons_prefix_cons.mp (List.cons_prefix_cons.mp h).2).2
    match body with
    | [] => exact absurd (List.cons_prefix_cons.mp htail).1 (by decide)
    | b :: body => exact List.cons_prefix_cons.mpr ⟨(List.cons_prefix_cons.mp htail).1, List.nil_prefix⟩
  · have htail := (List.cons_prefix_cons.mp h).2
    match body with
    | [] => exact absurd (List.cons_prefix_cons.mp (List.cons_prefix_cons.mp htail).2).1 (by decide)
    | [b] => exact absurd (List.cons_prefix_cons.mp (List.cons_prefix_cons.mp htail).2).1 (by decide)
    | b :: b' :: body =>
      apply hdash
      have hfirst := List.cons_prefix_cons.mp htail
      exact List.cons_prefix_cons.mpr ⟨hfirst.1, List.cons_prefix_cons.mpr
        ⟨(List.cons_prefix_cons.mp hfirst.2).1, List.nil_prefix⟩⟩
  · exact he h

theorem not_infix_pi {body : List UInt8} (hhead : body.head? ≠ some Byte.gt)
    (hbody : ¬ "?>".asBytes <:+: body ++ "?".asBytes) :
    ¬ "?>".asBytes <:+: "?".asBytes ++ (body ++ "?".asBytes) := by
  rw [show "?".asBytes ++ (body ++ "?".asBytes) = 63 :: (body ++ "?".asBytes) from rfl,
    List.infix_cons_iff]
  rintro (h | h)
  · have htail := (List.cons_prefix_cons.mp h).2
    match body with
    | [] => exact absurd (List.cons_prefix_cons.mp htail).1 (by decide)
    | b :: body => exact hhead (congrArg some (List.cons_prefix_cons.mp htail).1.symm)
  · exact hbody h

theorem not_infix_decl {body : List UInt8} (hbody : ¬ "?>".asBytes <:+: body ++ "?".asBytes) :
    ¬ "?>".asBytes <:+: "?".asBytes ++ ("xml".asBytes ++ body ++ "?".asBytes) := by
  refine not_infix_pi (fun h => absurd (Option.some.inj h) (by decide)) ?_
  rw [show "xml".asBytes ++ body ++ "?".asBytes = 120 :: 109 :: 108 :: (body ++ "?".asBytes) from rfl,
    List.infix_cons_iff, List.infix_cons_iff, List.infix_cons_iff]
  rintro (h | h | h | h)
  · exact absurd (List.cons_prefix_cons.mp h).1 (by decide)
  · exact absurd (List.cons_prefix_cons.mp h).1 (by decide)
  · exact absurd (List.cons_prefix_cons.mp h).1 (by decide)
  · exact hbody h

/-- One event of an accepted document. -/
theorem simulates_event {e : Event} (he : e.WellFormed) (hplain : e.Plain)
    (hlimit : ∀ n ∈ e.lengthAfter (a.raw.map List.length), n ≤ maxXmlTextBytes)
    (h : s.event q e = .ok s') (hcoherent : s.Coherent) (hstray : ¬ s'.Stray)
    (hs : Agrees q target s.view a) : Simulates q target e s' a := by
  cases e with
  | start tag =>
    simp only [State.event, Except.bind_eq_ok, Except.pure_eq_ok] at h
    obtain ⟨s₁, h, rfl⟩ := h
    obtain ⟨hstarted, -⟩ := started_of_start h
    have hsimulates := simulates_start he hplain hstarted
      (current_isSome_of_file hstarted hcoherent hstray) hs
    exact hsimulates
  | close name trailing =>
    simp only [State.event, Except.check_bind_eq_ok] at h
    exact simulates_close he (closed_of_close h.2).1 hs
  | empty tag => exact simulates_empty he hplain (view_of_empty h).1 hs
  | text raw => exact exists_foldlM_addText he.1 (added_of_text h) hlimit hs
  | generalRef name =>
    have hlength : (Byte.amp :: name ++ [Byte.semicolon]).length = name.length + 2 := by simp
    have hlt : Byte.lt ∉ Byte.amp :: name ++ [Byte.semicolon] := by
      simp only [List.cons_append, List.mem_cons, List.mem_append, List.not_mem_nil, or_false, not_or]
      exact ⟨by decide, he.1, by decide⟩
    have hadded := exists_foldlM_addText hlt (added_of_reference h) (hlength ▸ hlimit) hs
    rwa [hlength] at hadded
  | comment body =>
    cases h
    exact ⟨a, foldlM_byte_comment hs.mode (not_infix_comment he hplain), hs, rfl⟩
  | pi body =>
    cases h
    exact ⟨a, foldlM_byte_pi hs.mode (not_infix_pi he.1 he.2), hs, rfl⟩
  | decl body =>
    simp only [State.event, State.declaration, Except.check_bind_eq_ok, Except.pure_eq_ok] at h
    obtain ⟨-, rfl⟩ := h
    have hbytes := @foldlM_byte_pi q target a ("xml".asBytes ++ body) hs.mode (not_infix_decl he)
    exact ⟨a, hbytes, hs, rfl⟩
  | cData body =>
    rw [eq_of_content h]
    exact ⟨a, foldlM_byte_cData hs.mode hplain, hs, rfl⟩
  | docType body => cases h

theorem opened_of_event {e : Event} (h : s.event q e = .ok s') : s'.opened = e.opened s.opened := by
  have hadded {raw : List UInt8} (hadd : Added q raw s s') : s'.opened = s.opened := by
    rcases hadd with ⟨file, value, -, -, rfl⟩ | ⟨-, rfl⟩ <;> rfl
  cases e with
  | start tag =>
    simp only [State.event, Except.bind_eq_ok, Except.pure_eq_ok] at h
    obtain ⟨s₁, h, rfl⟩ := h
    exact congrArg (tag.name :: ·) (started_of_start h).2.1
  | close name trailing =>
    simp only [State.event, Except.check_bind_eq_ok] at h
    exact (closed_of_close h.2).2.1
  | empty tag => exact (view_of_empty h).2.1
  | text raw => exact hadded (added_of_text h)
  | generalRef name => exact hadded (added_of_reference h)
  | comment body | pi body =>
    cases h
    rfl
  | cData body =>
    rw [eq_of_content h]
    rfl
  | decl body =>
    simp only [State.event, State.declaration, Except.check_bind_eq_ok, Except.pure_eq_ok] at h
    obtain ⟨-, rfl⟩ := h
    rfl
  | docType body => cases h

theorem opened_of_foldlM {events : List Event} (h : events.foldlM (State.event q) s = .ok s') :
    s'.opened = events.foldl Event.opened s.opened := by
  induction events generalizing s with
  | nil =>
    cases h
    rfl
  | cons e events ih =>
    rw [List.foldlM_cons, Except.bind_eq_ok] at h
    obtain ⟨s₁, h₁, h⟩ := h
    rw [ih h, opened_of_event h₁, List.foldl_cons]

/-- All events of an accepted document. -/
theorem exists_foldlM_events {events : List Event} (hevents : ∀ e ∈ events, e.WellFormed)
    (hplain : ∀ e ∈ events, e.Plain) (hwithin : Within (a.raw.map List.length) events)
    (h : events.foldlM (State.event q) s = .ok s') (hstray : ¬ s'.Stray) (hcoherent : s.Coherent)
    (hs : Agrees q target s.view a) :
    ∃ a', (events.flatMap (·.render)).foldlM (Scan.byte q target) a = some a' ∧
      Agrees q target s'.view a' ∧ s'.Coherent := by
  induction events generalizing s a with
  | nil =>
    cases h
    exact ⟨a, rfl, hs, hcoherent⟩
  | cons e events ih =>
    rw [List.forall_mem_cons] at hevents hplain
    rw [List.foldlM_cons, Except.bind_eq_ok] at h
    obtain ⟨s₁, h₁, h⟩ := h
    obtain ⟨a₁, ha₁, hs₁, hlength⟩ := simulates_event hevents.1 hplain.1 hwithin.1 h₁ hcoherent
      (fun hs₁ => hstray (stray_of_foldlM h hs₁)) hs
    have hrest := hwithin.2
    rw [← hlength] at hrest
    obtain ⟨a', ha', hs', hcoherent'⟩ :=
      ih hevents.2 hplain.2 hrest h (coherent_of_event h₁ hcoherent) hs₁
    refine ⟨a', ?_, hs', hcoherent'⟩
    rw [List.flatMap_cons, List.foldlM_append, ha₁, Option.bind_eq_bind, Option.bind_some, ha']

theorem exists_scan {d : Document} (hd : d.Plain) {packages : List FileListPackage}
    (h : parseFilelists q d = .ok packages) {chunks : List (List UInt8)}
    (hchunks : chunks.flatten = d.bytes) :
    ∃ ids, scanValidatedFilelistsXmlPath q chunks target = .ok ids ∧ ids.Pairwise (· < ·) ∧
      ∀ id, id ∈ ids ↔ ∃ p ∈ packages, p.packageId = id ∧ target ∈ p.files := by
  rw [parseFilelists, Except.bind_eq_ok] at h
  obtain ⟨s, hevents, hfinish⟩ := h
  simp only [State.finish, refuse, Except.refuseIf_eq_ok, Except.bind_eq_ok, Except.okOr_eq_ok,
    Except.pure_eq_ok, not_or, Bool.not_eq_true', Bool.not_eq_false] at hfinish
  obtain ⟨_, ⟨-, hroot⟩, _, -, _, -, rfl⟩ := hfinish
  have hstray : ¬ s.Stray := by
    rw [State.Stray, opened_of_foldlM hevents, d.closed]
    exact Nat.not_lt_zero _
  have hinitial : Agrees q target (State.view {}) ⟨.text, none, none, []⟩ :=
    ⟨rfl, rfl, rfl, fun id => by simp [State.view], fun _ h => by cases h⟩
  have hfollows : Follows target { target } ⟨.text, none, none, []⟩ :=
    ⟨⟨rfl, rfl, rfl, rfl, fun _ h => by cases h⟩, rfl⟩
  obtain ⟨a, ha, hs, hcoherent⟩ := exists_foldlM_events (a := ⟨.text, none, none, []⟩) d.wellFormed
    hd.events hd.within hevents hstray ⟨fun h => (by cases h), fun h => (by cases h)⟩ hinitial
  rw [← Document.bytes, ← hchunks] at ha
  obtain ⟨s', hs', hfollows⟩ := exists_foldlM_push hfollows (fun _ h => by cases h) ha
  -- nothing is open at the end
  have hcurrent := hcoherent.root hroot
  have htext : s.view.fileText = none := by
    cases htext : s.view.fileText with
    | none => rfl
    | some text =>
      have hsome := hcoherent.file (by rw [htext]; rfl)
      rw [hcurrent] at hsome
      cases hsome
  have hraw : a.raw = none := by
    have hraw := hs.raw
    rw [htext] at hraw
    simpa using hraw
  have hmode := hfollows.mode
  rw [hs.mode] at hmode
  have hpackage : s'.packageId = none := by
    rw [hfollows.packageId, hs.packageId, hcurrent]
    rfl
  have hactive : s'.fileActive = false := by
    rw [hfollows.fileActive, hraw]
    rfl
  refine ⟨s'.providers.sortDedup, ?_, List.pairwise_sortDedup _, fun id => ?_⟩
  · rw [scanValidatedFilelistsXmlPath, hs', Except.ok_bind, ValidatedPathScanner.finish, hpackage,
      hactive, show s'.state = .text from hmode]
    rfl
  · rw [List.mem_sortDedup, hfollows.providers, hs.providers, hcurrent]
    simp [State.view, and_assoc]

/-- On a document that has none of the constructs that the two read differently, the scanner finds the
packages that the parser has the path for, in whatever pieces it is given the document. -/
theorem scan_eq_parse (q : QuickXml) (d : Document) (hd : d.Plain) (packages : List FileListPackage)
    (h : parseFilelists q d = .ok packages) :
    ∀ (target : String) (chunks : List (List UInt8)), chunks.flatten = d.bytes →
      ∃ ids, scanValidatedFilelistsXmlPath q chunks target = .ok ids ∧ ids.Pairwise (· < ·) ∧
        ∀ id, id ∈ ids ↔ ∃ p ∈ packages, p.packageId = id ∧ target ∈ p.files :=
  fun _ _ hchunks => exists_scan hd h hchunks

/-! ## Two documents -/

def sampleAttribute (key value : String) : Attribute :=
  ⟨[Byte.space], key.asBytes, [], [], Byte.quot, value.asBytes⟩

def sampleTag (name : String) (attributes : List Attribute) : Tag := ⟨name.asBytes, attributes, []⟩

def sampleFile (path : String) : List Event :=
  [.start (sampleTag "file" []), .text path.asBytes, .close "file".asBytes []]

/-- A package with the given content. -/
def sampleEvents (content : List Event) : List Event :=
  [.start (sampleTag "filelists" [sampleAttribute "xmlns" "http://linux.duke.edu/metadata/filelists",
      sampleAttribute "packages" "1"]),
    .start (sampleTag "package" [sampleAttribute "pkgid" "p", sampleAttribute "name" "n",
      sampleAttribute "arch" "noarch"]),
    .empty (sampleTag "version" [sampleAttribute "ver" "1", sampleAttribute "rel" "1"])] ++ content ++
    [.close "package".asBytes [], .close "filelists".asBytes []]

def sampleXml : QuickXml := ⟨fun name => if name = "amp".asBytes then some "&" else none⟩

/-- One file. -/
def fileDocument : Document where
  events := sampleEvents (sampleFile "/a")
  wellFormed := by decide +kernel
  closed := by decide +kernel

/-- The same with an empty element `<file/>` behind. -/
def emptyFileDocument : Document where
  events := sampleEvents (sampleFile "/a" ++ [.empty (sampleTag "file" [])])
  wellFormed := by decide +kernel
  closed := by decide +kernel

theorem scan_eq_parse_file : ∃ packages,
    parseFilelists sampleXml fileDocument = .ok packages ∧
    ∃ ids, scanValidatedFilelistsXmlPath sampleXml [fileDocument.bytes] "/a" = .ok ids ∧
      "p" ∈ ids := by
  have hparse : (parseFilelists sampleXml fileDocument).toOption.map
      (·.map fun p => (p.packageId, p.files)) = some [("p", ["/a"])] := by decide +kernel
  obtain ⟨packages, hpackages, hfiles⟩ := Except.toOption_map_eq_some.mp hparse
  have hplain : fileDocument.Plain := ⟨by decide +kernel, by decide +kernel⟩
  obtain ⟨ids, hids, -, hmem⟩ := scan_eq_parse sampleXml fileDocument hplain packages hpackages "/a"
    [fileDocument.bytes] List.flatten_singleton
  refine ⟨packages, hpackages, ids, hids, ?_⟩
  have hpackage : ("p", ["/a"]) ∈ packages.map fun p => (p.packageId, p.files) := by
    rw [hfiles]
    exact List.mem_cons_self
  obtain ⟨p, hp, heq⟩ := List.mem_map.mp hpackage
  rw [hmem]
  refine ⟨p, hp, congrArg Prod.fst heq, ?_⟩
  rw [show p.files = ["/a"] from congrArg Prod.snd heq]
  exact List.mem_cons_self

/-- The parser leaves `<file/>` alone; the scanner opens a file that nothing closes. -/
theorem scan_ne_parse_emptyFile : ¬ ∀ (q : QuickXml) (d : Document) (packages : List FileListPackage)
    (target : String) (chunks : List (List UInt8)), parseFilelists q d = .ok packages →
    chunks.flatten = d.bytes → ∃ ids, scanValidatedFilelistsXmlPath q chunks target = .ok ids ∧
      ids.Pairwise (· < ·) ∧ ∀ id, id ∈ ids ↔ ∃ p ∈ packages, p.packageId = id ∧ target ∈ p.files := by
  intro h
  have hparse : (parseFilelists sampleXml emptyFileDocument).toOption.isSome = true := by
    decide +kernel
  have hscan : (scanValidatedFilelistsXmlPath sampleXml [emptyFileDocument.bytes] "/a").toOption =
      none := by decide +kernel
  cases hpackages : parseFilelists sampleXml emptyFileDocument with
  | error e =>
    rw [hpackages] at hparse
    cases hparse
  | ok packages =>
    obtain ⟨ids, hids, -⟩ := h sampleXml emptyFileDocument packages "/a" [emptyFileDocument.bytes]
      hpackages List.flatten_singleton
    rw [hids] at hscan
    cases hscan

end Dnfast.Metadata
