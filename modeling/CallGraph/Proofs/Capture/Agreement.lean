import CallGraph.Proofs.Capture.Endpoints
import CallGraph.Proofs.Capture.Layout
import CallGraph.Proofs.Method.Package

/-!
An edge that is written with objects as its endpoints is the same edge on a line of a capture as it is
elsewhere. A capture has more such edges only in that an endpoint may lack its package.
-/
namespace CallGraph.Capture

open Json

variable {gap gap' body : List Char} {key : String} {place : ℕ} {value : List Char}

/-- The text of a value in the text of a record: under its key in an object, or at its place in a list. -/
inductive FieldText (key : String) (place : ℕ) (value text : List Char) : Prop
  | object {gap parts body gap'} (hgap : Gap gap) (hgap' : Gap gap') (hbody : Outline .object parts body)
    (hvalue : ⟨some key, value⟩ ∈ parts) (htext : text = gap ++ body ++ gap')
  | list {gap parts body gap'} (hgap : Gap gap) (hgap' : Gap gap') (hbody : Outline .list parts body)
    (hvalue : parts[place]? = some ⟨none, value⟩) (htext : text = gap ++ body ++ gap')

theorem fieldText_iff_of_object {names : List String} {members : List Part} (hgap : Gap gap)
    (hgap' : Gap gap') (hbody : Comprises names members body) (hkey : key ∈ names) :
    FieldText key place value (gap ++ body ++ gap') ↔ ⟨some key, value⟩ ∈ members := by
  obtain ⟨hbody, hparts, hothers⟩ := hbody
  constructor
  · rintro (⟨hgap₁, hgap₁', hbody₁, hvalue, htext⟩ | ⟨hgap₁, hgap₁', hbody₁, -, htext⟩)
    · obtain ⟨-, rfl⟩ := hbody.unique_within hgap hgap' hbody₁ hgap₁ hgap₁' htext
      rcases List.mem_append.mp (hparts.mem_iff.mp hvalue) with hmem | hmem
      · exact hmem
      · obtain ⟨key', heq, hnone⟩ := hothers _ hmem
        obtain rfl := Option.some.inj heq
        exact absurd hkey hnone
    · cases (hbody.unique_within hgap hgap' hbody₁ hgap₁ hgap₁' htext).1
  · intro hmem
    exact .object hgap hgap' hbody (hparts.mem_iff.mpr (List.mem_append_left _ hmem)) rfl

theorem fieldText_iff_of_list {parts : List Part} (hgap : Gap gap) (hgap' : Gap gap')
    (hbody : Outline .list parts body) :
    FieldText key place value (gap ++ body ++ gap') ↔ parts[place]? = some ⟨none, value⟩ := by
  constructor
  · rintro (⟨hgap₁, hgap₁', hbody₁, -, htext⟩ | ⟨hgap₁, hgap₁', hbody₁, hvalue, htext⟩)
    · cases (hbody.unique_within hgap hgap' hbody₁ hgap₁ hgap₁' htext).1
    · obtain ⟨-, rfl⟩ := hbody.unique_within hgap hgap' hbody₁ hgap₁ hgap₁' htext
      exact hvalue
  · intro hvalue
    exact .list hgap hgap' hbody hvalue rfl

/-- The endpoints of a written edge have a text each, which may be replaced in what is said of them. -/
theorem exists_endpoints {method : Method → List Char → Prop} {e : Edge} (h : e.Written method body)
    (hgap : Gap gap) (hgap' : Gap gap') :
    ∃ source target, method e.source source ∧ method e.target target ∧
      (∀ value, FieldText "src" 0 value (gap ++ body ++ gap') ↔ value = source) ∧
      (∀ value, FieldText "tgt" 1 value (gap ++ body ++ gap') ↔ value = target) ∧
      ∀ {method' : Method → List Char → Prop}, method' e.source source → method' e.target target →
        e.Written method' body := by
  cases h with
  | @object source target kind label hsource htarget hkind hlabel htext =>
    refine ⟨source, target, hsource, htarget, fun value => ?_, fun value => ?_, fun hsource htarget =>
      .object hsource htarget hkind hlabel htext⟩
    · rw [fieldText_iff_of_object hgap hgap' htext (by decide)]
      simp
    · rw [fieldText_iff_of_object hgap hgap' htext (by decide)]
      simp
  | @list source target kind label hsource htarget hkind hlabel htext =>
    refine ⟨source, target, hsource, htarget, fun value => ?_, fun value => ?_, fun hsource htarget =>
      .list hsource htarget hkind hlabel htext⟩
    · rw [fieldText_iff_of_list hgap hgap' htext]
      simp [eq_comm]
    · rw [fieldText_iff_of_list hgap hgap' htext]
      simp [eq_comm]

def ObjectEndpoints (text : List Char) : Prop :=
  (∃ source, FieldText "src" 0 source text ∧ IsObject source) ∧
    ∃ target, FieldText "tgt" 1 target text ∧ IsObject target

theorem fieldText_serialized {key : String} (place : ℕ) {v : Value} {members : List (String × Value)}
    (hforms : ∀ m ∈ members, Form .value (chars m.2.pieces)) (hmember : (key, v) ∈ members) :
    FieldText key place (chars v.pieces) (Value.object members).render.toList := by
  refine .object gap_nil gap_nil (outline_object hforms) (List.mem_map_of_mem hmember) ?_
  rw [toList_render, List.nil_append, List.append_nil]

theorem FieldText.ne_nil {text : List Char} (h : FieldText key place value text) : text ≠ [] := by
  have hne {frame : Frame} {parts : List Part} {gap body gap' : List Char}
      (hbody : Outline frame parts body) : gap ++ body ++ gap' ≠ [] := by
    obtain ⟨c, more, rfl, -⟩ := hbody.form.begins
    simp
  cases h with
  | object _ _ hbody _ htext => exact htext ▸ hne hbody
  | list _ _ hbody _ htext => exact htext ▸ hne hbody

section Endpoints

theorem exact_edge : Exact Edge.schema.read :=
  Schema.exact_read (Edge.exact_field Method.exact_read)

theorem exact_line : Exact edgeSchema.read :=
  Schema.exact_read (Edge.exact_field (Schema.exact_read exact_method))

/-- The text of an endpoint, which is an object, of an edge that is written in some text. -/
structure Endpoint (method : Method → List Char → Prop) (m : Method) (key : String) (place : ℕ)
    (value text : List Char) : Prop where
  written : method m value
  object : IsObject value
  field : FieldText key place value text

theorem exists_object_endpoints {method : Method → List Char → Prop} {e : Edge} (h : e.Written method body)
    (hgap : Gap gap) (hgap' : Gap gap') (hends : ObjectEndpoints (gap ++ body ++ gap')) :
    ∃ source target, Endpoint method e.source "src" 0 source (gap ++ body ++ gap') ∧
      Endpoint method e.target "tgt" 1 target (gap ++ body ++ gap') ∧
      ∀ {method' : Method → List Char → Prop}, method' e.source source → method' e.target target →
        e.Written method' body := by
  obtain ⟨source, target, hsource, htarget, hsrc, htgt, hreplace⟩ := exists_endpoints h hgap hgap'
  obtain ⟨⟨_, hsourceText, hsourceObject⟩, ⟨_, htargetText, htargetObject⟩⟩ := hends
  obtain rfl := (hsrc _).mp hsourceText
  obtain rfl := (htgt _).mp htargetText
  exact ⟨_, _, ⟨hsource, hsourceObject, hsourceText⟩, ⟨htarget, htargetObject, htargetText⟩, hreplace⟩

/-- An edge that is accepted elsewhere is accepted in a capture. -/
theorem accepts_line {e : Edge} (h : Accepts Edge.schema.read body e) (hgap : Gap gap) (hgap' : Gap gap')
    (hends : ObjectEndpoints (gap ++ body ++ gap')) : Accepts edgeSchema.read body e := by
  have hwritten := (Edge.written_iff Method.exact_read).mp h
  obtain ⟨source, target, hsource, htarget, hreplace⟩ := exists_object_endpoints hwritten hgap hgap' hends
  have hsourceLine := accepts_of_written (Method.written_iff.mp hsource.written) hsource.object
  have htargetLine := accepts_of_written (Method.written_iff.mp htarget.written) htarget.object
  exact (hreplace hsourceLine htargetLine).accepts

/-- An endpoint of an edge has no package in its text, and is in the package of its owner. -/
def EndpointUnpackaged (e : Edge) (text : List Char) : Prop :=
  ∃ value m, (FieldText "src" 0 value text ∧ m = e.source ∨ FieldText "tgt" 1 value text ∧ m = e.target) ∧
    Unpackaged value ∧ BeforeLastDot m.owner m.package

/-- An edge that is accepted in a capture is accepted elsewhere, if both of its endpoints have their
packages. -/
theorem accepts_or_unpackaged {e : Edge} (h : Accepts edgeSchema.read body e) (hgap : Gap gap)
    (hgap' : Gap gap') (hends : ObjectEndpoints (gap ++ body ++ gap')) :
    Accepts Edge.schema.read body e ∨ EndpointUnpackaged e (gap ++ body ++ gap') := by
  have hwritten := (Edge.written_iff (Schema.exact_read exact_method)).mp h
  obtain ⟨source, target, hsource, htarget, hreplace⟩ := exists_object_endpoints hwritten hgap hgap' hends
  rcases written_or_unpackaged hsource.written hsource.object with hsource' | ⟨hunpackaged, hpackage⟩
  · rcases written_or_unpackaged htarget.written htarget.object with htarget' | ⟨hunpackaged, hpackage⟩
    · exact .inl (hreplace (Method.written_iff.mpr hsource') (Method.written_iff.mpr htarget')).accepts
    · have hbefore := beforeLastDot_packageOf e.target.owner
      exact .inr ⟨target, e.target, .inr ⟨htarget.field, rfl⟩, hunpackaged, hpackage ▸ hbefore⟩
  · have hbefore := beforeLastDot_packageOf e.source.owner
    exact .inr ⟨source, e.source, .inl ⟨hsource.field, rfl⟩, hunpackaged, hpackage ▸ hbefore⟩

end Endpoints

section Line

theorem trim_concat {c : Char} (hc : Text.isBlank c) (s : List Char) :
    Text.trim (s ++ [c]) = Text.trim s := by
  simp only [Text.trim, List.dropWhile_append]
  split
  · rename_i hempty
    simp [hc, List.isEmpty_iff.mp hempty]
  · simp [hc]

theorem trim_outline {frame : Frame} {parts : List Part} (hgap : Gap gap) (hgap' : Gap gap')
    (hbody : Outline frame parts body) : Text.trim (gap ++ body ++ gap') = body := by
  have hblank {s : List Char} (hs : Gap s) : ∀ c ∈ s, Text.isBlank c := by
    intro c hc
    have hc := hs c hc
    simp only [isBlank, Bool.or_eq_true, decide_eq_true_eq] at hc
    rcases hc with ((rfl | rfl) | rfl) | rfl <;> rfl
  obtain ⟨⟨hinside, hend⟩, -⟩ := hbody
  refine Text.trim_append (hblank hgap) (hblank hgap') ?_ ?_
  · simp only [List.head?_cons, Option.mem_def, Option.some.injEq, forall_eq']
    cases frame <;> rfl
  · rw [← List.cons_append, List.getLast?_concat]
    simp only [Option.mem_def, Option.some.injEq, forall_eq']
    cases frame <;> rfl

theorem trim_render {members : List (String × Value)}
    (hforms : ∀ m ∈ members, Form .value (chars m.2.pieces)) :
    Text.trim (Value.object members).render.toList = (Value.object members).render.toList := by
  rw [toList_render]
  simpa using trim_outline gap_nil gap_nil (outline_object hforms)

theorem takeLine_of_ended {line : List UInt8} (hline : 10 ∉ line) (later : List UInt8) :
    takeLine (line ++ 10 :: later) = (line ++ [10], later) := by
  have hother : ∀ b ∈ line, decide (b ≠ 10) = true := by
    intro b hb
    simpa using fun heq : b = 10 => hline (heq ▸ hb)
  rw [takeLine, List.dropWhile_append_of_pos hother, List.takeWhile_append_of_pos hother]
  simp

theorem takeLine_of_last {line : List UInt8} (hline : 10 ∉ line) : takeLine line = (line, []) := by
  have hother : ∀ b ∈ line, decide (b ≠ 10) = true := by
    intro b hb
    simpa using fun heq : b = 10 => hline (heq ▸ hb)
  rw [takeLine, List.dropWhile_eq_nil_iff.mpr hother, List.takeWhile_eq_self_iff.mpr hother]

def endedLine (line : String) (later : List UInt8) : List UInt8 :=
  bytesOf line ++ 10 :: later

theorem takeLine_endedLine {line : String} (hline : '\n' ∉ line.toList) (later : List UInt8) :
    lineText? (takeLine (endedLine line later)).1 = some (Text.trim line.toList) ∧
      (takeLine (endedLine line later)).2 = later := by
  have hbytes : 10 ∉ bytesOf line := by rwa [bytesOf_eq, newline_mem_encoded]
  have hended : bytesOf line ++ [10] = (line.toList ++ ['\n']).flatMap String.utf8EncodeChar := by
    rw [bytesOf_eq, List.flatMap_append]
    rfl
  rw [endedLine, takeLine_of_ended hbytes, hended, lineText?_encoded, trim_concat rfl]
  exact ⟨rfl, rfl⟩

/-- The next line that is not blank, behind some lines that are: it is ended by a line feed, or it is the
last one. -/
inductive Heads (line : String) (later : List UInt8) : ℕ → List UInt8 → Prop
  | blank {blanks bytes margin} (hmargin : '\n' ∉ margin.toList) (hblank : Text.trim margin.toList = [])
    (hrest : Heads line later blanks bytes) : Heads line later (blanks + 1) (endedLine margin bytes)
  | ended : Heads line later 0 (endedLine line later)
  | last (hlater : later = []) : Heads line later 0 (bytesOf line)

theorem nextLine_eq {bytes : List UInt8} (hbytes : bytes ≠ []) (count : ℕ) :
    nextLine count bytes = match lineText? (takeLine bytes).1 with
      | none => .undecodable count (takeLine bytes).2
      | some [] => nextLine (count + 1) (takeLine bytes).2
      | some text => .text (count + 1) text (takeLine bytes).2 := by
  obtain ⟨b, rest, rfl⟩ := List.exists_cons_of_ne_nil hbytes
  exact nextLine.eq_2 count b rest

theorem nextLine_of_heads {line : String} {later bytes : List UInt8} {blanks : ℕ}
    (h : Heads line later blanks bytes) (hline : '\n' ∉ line.toList) (hne : Text.trim line.toList ≠ [])
    (count : ℕ) :
    nextLine count bytes = .text (count + blanks + 1) (Text.trim line.toList) later := by
  induction h generalizing count with
  | @blank blanks bytes margin hmargin hblank _ ih =>
    obtain ⟨htext, hrest⟩ := takeLine_endedLine hmargin bytes
    rw [nextLine_eq (by simp [endedLine]), htext, hblank, hrest]
    simp only [ih]
    congr 1
    omega
  | ended =>
    obtain ⟨htext, hrest⟩ := takeLine_endedLine hline later
    rw [nextLine_eq (by simp [endedLine]), htext, hrest]
    split <;> simp_all
  | last hlater =>
    have hbytes : 10 ∉ bytesOf line := by rwa [bytesOf_eq, newline_mem_encoded]
    have htext : lineText? (bytesOf line) = some (Text.trim line.toList) := by
      rw [bytesOf_eq, lineText?_encoded]
    have hnonempty : bytesOf line ≠ [] := by
      intro hempty
      rw [hempty] at htext
      exact hne (Option.some.inj htext).symm
    rw [nextLine_eq hnonempty, takeLine_of_last hbytes, htext, hlater]
    split <;> simp_all

end Line

namespace Stream

/-- A stream that has not ended, and whose next line that is not blank is a certain one. -/
structure AtLine (s : Stream) (line : String) (blanks : ℕ) (later : List UInt8) : Prop where
  live : s.ended = false
  heads : Heads line later blanks s.unread

def past (s : Stream) (blanks : ℕ) (later : List UInt8) : Stream :=
  { s with unread := later, lines := s.lines + blanks + 1 }

variable {s s' : Stream} {line : String} {blanks : ℕ} {later : List UInt8}

theorem AtLine.next_eq (h : s.AtLine line blanks later) (hline : '\n' ∉ line.toList)
    (hne : Text.trim line.toList ≠ []) :
    s.next = match Json.parse edgeSchema.read (Text.trim line.toList) with
      | .error fault =>
        (some (.error (.invalidEdge (s.lines + blanks + 1) fault)),
          { s.past blanks later with ended := true })
      | .ok e => (some (.ok e), s.past blanks later) := by
  rw [next, if_neg (by simp [h.live]), nextLine_of_heads h.heads hline hne]
  rfl

/-- An edge that a stream gives is what the next line that is not blank is read as. -/
theorem parse_of_next {number : ℕ} {text : List Char} {rest : List UInt8} {e : Edge}
    (hline : nextLine s.lines s.unread = .text number text rest) (hnext : s.next = (some (.ok e), s')) :
    Json.parse edgeSchema.read text = .ok e := by
  unfold next at hnext
  split_ifs at hnext
  · cases hnext
  · rw [hline] at hnext
    dsimp only at hnext
    split at hnext
    · cases hnext
    · rename_i hparse
      obtain ⟨⟨⟩, -⟩ := Prod.mk.inj hnext
      exact hparse

theorem AtLine.parse_of_next (h : s.AtLine line blanks later) (hline : '\n' ∉ line.toList)
    (hne : Text.trim line.toList ≠ []) {e : Edge} (hnext : s.next = (some (.ok e), s')) :
    Json.parse edgeSchema.read (Text.trim line.toList) = .ok e :=
  Stream.parse_of_next (nextLine_of_heads h.heads hline hne s.lines) hnext

/-- The two ways to read an edge agree on a line. -/
structure Agrees (line : String) : Prop where
  /-- A text that is accepted as an edge with objects as its endpoints is the same edge as a line. -/
  same : ∀ e, Json.parse Edge.schema.read line.toList = .ok e → ObjectEndpoints line.toList →
    ∀ s blanks later, AtLine s line blanks later → s.next = (some (.ok e), s.past blanks later)
  /-- A line with objects as its endpoints that is an edge, but is not accepted as one elsewhere, has an
  endpoint without a package, which is then in the package of its owner. -/
  apart : ∀ s blanks later e s', AtLine s line blanks later → s.next = (some (.ok e), s') →
    ObjectEndpoints (Text.trim line.toList) →
    (∀ e', Json.parse Edge.schema.read (Text.trim line.toList) ≠ .ok e') →
    EndpointUnpackaged e (Text.trim line.toList)

theorem agrees (hline : '\n' ∉ line.toList) : Agrees line := by
  constructor
  · intro e hparse hends s blanks later hs
    obtain ⟨gap, body, gap', hgap, hgap', haccepts, htext⟩ := exact_edge.parse_iff.mp hparse
    have hline' : Accepts edgeSchema.read body e := accepts_line haccepts hgap hgap' (htext ▸ hends)
    obtain ⟨frame, parts, hbody⟩ := ((Edge.written_iff Method.exact_read).mp haccepts).exists_outline
    have htrim : Text.trim line.toList = body := by rw [htext, trim_outline hgap hgap' hbody]
    have hne : body ≠ [] := by
      obtain ⟨c, more, rfl, -⟩ := haccepts.form.begins
      exact List.cons_ne_nil c more
    rw [hs.next_eq hline (by rwa [htrim]), htrim, parse_of_reads hline'.reads]
  · intro s blanks later e s' hs hnext hends hrejected
    have hne : Text.trim line.toList ≠ [] := by
      obtain ⟨⟨_, hsource, -⟩, -⟩ := hends
      exact hsource.ne_nil
    have hparse := hs.parse_of_next hline hne hnext
    obtain ⟨gap, body, gap', hgap, hgap', haccepts, htext⟩ := exact_line.parse_iff.mp hparse
    rw [htext] at hends ⊢
    rcases accepts_or_unpackaged haccepts hgap hgap' hends with helsewhere | hunpackaged
    · have haccepted := exact_edge.parse_iff.mpr ⟨gap, body, gap', hgap, hgap', helsewhere, htext⟩
      exact absurd haccepted (hrejected e)
    · exact hunpackaged

/-- A method whose members are in an order of their own, with an unknown one among them. -/
private def methodMembers (owner : String) (package : Value) : List (String × Value) :=
  [("name", .text "f\n"), ("line", .null), ("package", package), ("sig", .text ""), ("class", .text owner)]

private def callMembers (package : Value) : List (String × Value) :=
  [("kind", .text "Thread_Fake"), ("tgt", .object (methodMembers "B" (.text "q"))), ("\u0085", .null),
    ("src", .object (methodMembers "p.r.A" package))]

private def call : Edge :=
  ⟨⟨"p.r.A", "f\n", "p.r", ""⟩, ⟨"B", "f\n", "q", ""⟩, .other "Thread_Fake"⟩

private def atCall (package : Value) : Stream :=
  ⟨⟨1, 2⟩, endedLine "\u2003" (endedLine (Value.object (callMembers package)).render []), 1, false⟩

private theorem isObject_method (owner : String) {package : Value}
    (hpackage : Form .value (chars package.pieces)) :
    IsObject (chars (Value.object (methodMembers owner package)).pieces) :=
  ⟨_, outline_object (by simp [methodMembers, form_text, form_null, hpackage])⟩

private theorem forms_call {package : Value} (hpackage : Form .value (chars package.pieces)) :
    ∀ m ∈ callMembers package, Form .value (chars m.2.pieces) := by
  obtain ⟨_, hsource⟩ := isObject_method "p.r.A" hpackage
  obtain ⟨_, htarget⟩ := isObject_method "B" (form_text "q")
  simp [callMembers, form_text, form_null, hsource.form, htarget.form]

private theorem endpoints_call {package : Value} (hpackage : Form .value (chars package.pieces)) :
    ObjectEndpoints (Value.object (callMembers package)).render.toList := by
  have hforms := forms_call hpackage
  exact ⟨⟨_, fieldText_serialized 0 hforms (by simp [callMembers]), isObject_method "p.r.A" hpackage⟩,
    ⟨_, fieldText_serialized 1 hforms (by simp [callMembers]), isObject_method "B" (form_text "q")⟩⟩

theorem agrees_call :
    (atCall (.text "p.r")).next = (some (.ok call), (atCall (.text "p.r")).past 1 []) ∧
    (atCall .null).next = (some (.ok call), (atCall .null).past 1 []) ∧
    EndpointUnpackaged call (Text.trim (Value.object (callMembers .null)).render.toList) := by
  have hheads (package : Value) :
      AtLine (atCall package) (Value.object (callMembers package)).render 1 [] :=
    ⟨rfl, .blank (by decide) (by decide) .ended⟩
  have hline : '\n' ∉ (Value.object (callMembers .null)).render.toList := by
    rw [toList_render]
    decide +kernel
  have htrim := trim_render (forms_call form_null)
  have hparse : Json.parse edgeSchema.read (Value.object (callMembers .null)).render.toList = .ok call := by
    rw [toList_render]
    decide +kernel
  have hrejected : (Json.parse Edge.schema.read
      (Value.object (callMembers .null)).render.toList).toOption = none := by
    rw [toList_render]
    decide +kernel
  have hends := endpoints_call form_null
  have hne : (Value.object (callMembers .null)).render.toList ≠ [] := by
    obtain ⟨⟨_, hsource, -⟩, -⟩ := hends
    exact hsource.ne_nil
  have hnext : (atCall .null).next = (some (.ok call), (atCall .null).past 1 []) := by
    rw [(hheads .null).next_eq hline (by rwa [htrim]), htrim]
    simp only [hparse]
  refine ⟨?_, hnext, ?_⟩
  · have hline : '\n' ∉ (Value.object (callMembers (.text "p.r"))).render.toList := by
      rw [toList_render]
      decide +kernel
    have hparse : Json.parse Edge.schema.read (Value.object (callMembers (.text "p.r"))).render.toList =
        .ok call := by
      rw [toList_render]
      decide +kernel
    exact (agrees hline).same call hparse (endpoints_call (form_text _)) _ 1 [] (hheads _)
  · refine (agrees hline).apart _ 1 [] call _ (hheads .null) hnext ?_ ?_
    · rw [htrim]
      exact hends
    · intro e' he'
      rw [htrim] at he'
      rw [he'] at hrejected
      cases hrejected

end Stream
end CallGraph.Capture
