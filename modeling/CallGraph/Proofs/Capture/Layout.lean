import CallGraph.Analyzer.Engine
import CallGraph.Proofs.Capture.Batch
import CallGraph.Proofs.Capture.Records
import CallGraph.Proofs.Text.Ascii

/-!
A call graph that is laid out as a text, one record a line, is what a reader of its bytes gets back.
-/
namespace CallGraph

theorem newline_mem_encoded {text : List Char} :
    10 ∈ text.flatMap String.utf8EncodeChar ↔ '\n' ∈ text :=
  toUInt8_mem_encoded (c := '\n') (by decide)

namespace Text

/-- White space around a text whose ends are none is what trimming takes away. -/
theorem trim_append {before text after : List Char} (hbefore : ∀ c ∈ before, isBlank c)
    (hafter : ∀ c ∈ after, isBlank c) (hhead : ∀ c ∈ text.head?, isBlank c = false)
    (hlast : ∀ c ∈ text.getLast?, isBlank c = false) : trim (before ++ text ++ after) = text := by
  have hdrop (s rest : List Char) (hs : ∀ c ∈ s.head?, isBlank c = false) (hne : s ≠ []) :
      (s ++ rest).dropWhile isBlank = s ++ rest := by
    obtain ⟨c, more, rfl⟩ := List.exists_cons_of_ne_nil hne
    simp [hs c rfl]
  by_cases hne : text = []
  · subst hne
    have hall : ∀ c ∈ before ++ [] ++ after, isBlank c := by
      simpa [or_imp, forall_and] using ⟨hbefore, hafter⟩
    rw [trim, List.dropWhile_eq_nil_iff.mpr hall]
    rfl
  · have hreverse : (text ++ after).reverse.dropWhile isBlank = text.reverse := by
      have hblank : ∀ c ∈ after.reverse, isBlank c := by simpa using hafter
      have hstart := hdrop text.reverse [] (by simpa using hlast) (by simpa using hne)
      rw [List.append_nil] at hstart
      rw [List.reverse_append, List.dropWhile_append_of_pos hblank, hstart]
    rw [trim, List.append_assoc, List.dropWhile_append_of_pos hbefore, hdrop text after hhead hne,
      hreverse, List.reverse_reverse]

end Text

namespace Capture

theorem lineText?_encoded (line : List Char) :
    lineText? (line.flatMap String.utf8EncodeChar) = some (Text.trim line) := by
  have hbytes : (⟨(line.flatMap String.utf8EncodeChar).toArray⟩ : ByteArray) =
      (String.ofList line).toByteArray := by
    apply ByteArray.ext
    rw [String.toByteArray_ofList, List.utf8Encode, List.data_toByteArray]
  have hdecoded : String.fromUTF8? (String.ofList line).toByteArray = some (String.ofList line) := by
    rw [String.fromUTF8?, dif_pos (String.ofList line).isValidUTF8]
    rfl
  rw [lineText?, hbytes, hdecoded, Option.map_some, String.toList_ofList]

/-- White space that does not end its line. -/
def Margin (s : List Char) : Prop :=
  ∀ c ∈ s, Text.isBlank c ∧ c ≠ '\n'

/-- A text with some records, one a line. White space may surround each of them, a carriage return before
the line feed among it; lines of white space may stand anywhere, and the last line may lack its end. -/
inductive Laid : (records : List (List Char)) → (text : List Char) → Prop
  | done {margin} (hmargin : Margin margin) : Laid [] margin
  | last {record before after} (hbefore : Margin before) (hafter : Margin after) :
    Laid [record] (before ++ record ++ after)
  | blank {records margin text} (hmargin : Margin margin) (hrest : Laid records text) :
    Laid records (margin ++ '\n' :: text)
  | record {record records before after text} (hbefore : Margin before) (hafter : Margin after)
    (hrest : Laid records text) : Laid (record :: records) (before ++ record ++ after ++ '\n' :: text)

/-- A text on one line that white space around it can be told from. -/
structure Solid (text : List Char) : Prop where
  ne_nil : text ≠ []
  line : '\n' ∉ text
  head : ∀ c ∈ text.head?, Text.isBlank c = false
  last : ∀ c ∈ text.getLast?, Text.isBlank c = false

private theorem trim_margin {margin ending : List Char} (hmargin : Margin margin)
    (hending : ∀ c ∈ ending, Text.isBlank c) : Text.trim (margin ++ ending) = [] := by
  have hends : (∀ c ∈ ([] : List Char).head?, Text.isBlank c = false) ∧
      ∀ c ∈ ([] : List Char).getLast?, Text.isBlank c = false := by simp
  simpa using Text.trim_append (fun c hc => (hmargin c hc).1) hending hends.1 hends.2

private theorem trim_record {before record after ending : List Char} (hsolid : Solid record)
    (hbefore : Margin before) (hafter : Margin after) (hending : ∀ c ∈ ending, Text.isBlank c) :
    Text.trim (before ++ record ++ after ++ ending) = record := by
  rw [List.append_assoc]
  refine Text.trim_append (fun c hc => (hbefore c hc).1) ?_ hsolid.head hsolid.last
  intro c hc
  rcases List.mem_append.mp hc with hc | hc
  · exact (hafter c hc).1
  · exact hending c hc

private theorem newline_notMem_margin {margin : List Char} (hmargin : Margin margin) : '\n' ∉ margin :=
  fun h => (hmargin _ h).2 rfl

private theorem newline_notMem_record {before record after : List Char} (hsolid : Solid record)
    (hbefore : Margin before) (hafter : Margin after) : '\n' ∉ before ++ record ++ after := by
  simp [newline_notMem_margin hbefore, newline_notMem_margin hafter, hsolid.line]

/-- The first line of a text that a line feed ends, and the lines behind it. -/
theorem entries_encoded_line (count : ℕ) {line : List Char} (hline : '\n' ∉ line) (text : List Char) :
    entries count (splitLines ((line ++ '\n' :: text).flatMap String.utf8EncodeChar)) =
      (if Text.trim (line ++ ['\n']) = [] then [] else [⟨count + 1, some (Text.trim (line ++ ['\n']))⟩]) ++
        entries (count + 1) (splitLines (text.flatMap String.utf8EncodeChar)) := by
  have hbytes : (line ++ '\n' :: text).flatMap String.utf8EncodeChar =
      line.flatMap String.utf8EncodeChar ++ 10 :: text.flatMap String.utf8EncodeChar := by
    rw [List.flatMap_append, List.flatMap_cons]
    rfl
  have hended : line.flatMap String.utf8EncodeChar ++ [10] =
      (line ++ ['\n']).flatMap String.utf8EncodeChar := by
    rw [List.flatMap_append]
    rfl
  rw [hbytes, splitLines_of_ended (newline_mem_encoded.not.mpr hline), hended, entries_cons,
    lineText?_encoded]
  simp

/-- The only line of a text that no line feed ends. -/
theorem entries_encoded_last (count : ℕ) {line : List Char} (hne : line ≠ []) (hline : '\n' ∉ line) :
    entries count (splitLines (line.flatMap String.utf8EncodeChar)) =
      if Text.trim line = [] then [] else [⟨count + 1, some (Text.trim line)⟩] := by
  have hencoded : line.flatMap String.utf8EncodeChar ≠ [] := by
    obtain ⟨c, more, rfl⟩ := List.exists_cons_of_ne_nil hne
    simp
  rw [splitLines_of_last hencoded (newline_mem_encoded.not.mpr hline), entries_cons, lineText?_encoded]
  simp [entries]

/-- The lines that are not blank in a text hold its records. -/
theorem texts_of_laid {records : List (List Char)} {text : List Char} (h : Laid records text)
    (hsolid : ∀ record ∈ records, Solid record) (count : ℕ) :
    (entries count (splitLines (text.flatMap String.utf8EncodeChar))).map Entry.text? =
      records.map some := by
  have hfeed : ∀ c ∈ ['\n'], Text.isBlank c := by
    intro c hc
    rw [List.mem_singleton.mp hc]
    rfl
  induction h generalizing count with
  | @done margin hmargin =>
    by_cases hne : margin = []
    · subst hne
      rfl
    · have htrim : Text.trim (margin ++ []) = [] := trim_margin hmargin (by simp)
      rw [List.append_nil] at htrim
      rw [entries_encoded_last count hne (newline_notMem_margin hmargin), htrim]
      rfl
  | @last record before after hbefore hafter =>
    have hrecord := hsolid record List.mem_cons_self
    have htrim : Text.trim (before ++ record ++ after ++ []) = record :=
      trim_record hrecord hbefore hafter (by simp)
    rw [List.append_nil] at htrim
    have hne : before ++ record ++ after ≠ [] := by simp [hrecord.ne_nil]
    rw [entries_encoded_last count hne (newline_notMem_record hrecord hbefore hafter), htrim,
      if_neg hrecord.ne_nil]
    rfl
  | @blank records margin text hmargin _ ih =>
    rw [entries_encoded_line count (newline_notMem_margin hmargin), trim_margin hmargin hfeed, if_pos rfl]
    exact ih hsolid (count + 1)
  | @record record records before after text hbefore hafter _ ih =>
    have hrecord := hsolid record List.mem_cons_self
    have hrest := ih (fun r hr => hsolid r (List.mem_cons_of_mem _ hr)) (count + 1)
    rw [entries_encoded_line count (newline_notMem_record hrecord hbefore hafter),
      trim_record hrecord hbefore hafter hfeed, if_neg hrecord.ne_nil]
    simp [hrest]

theorem newline_notMem_textPieces (s : String) : '\n' ∉ Json.chars (Json.textPieces s) := by
  have hcontrol : ∀ n < 32, '\n' ∉ "\\u00".toList ++ Json.hexPair n := by decide
  have hwritten (c : Char) : '\n' ∉ Json.written c := by
    unfold Json.written Json.escape?
    split_ifs with _ _ _ _ hnewline _ _ hc
    iterate 7
      · subst c
        decide
    · simpa using hcontrol c.toNat hc
    · simpa using fun h => hnewline h.symm
  simp [Json.chars_textPieces, hwritten]

theorem solid_objectText {members : List Json.Member} (h : '\n' ∉ Json.objectText members) :
    Solid (Json.objectText members) := by
  refine ⟨by simp [Json.objectText], h, ?_, ?_⟩
  · rintro c ⟨⟩
    rfl
  · intro c hc
    rw [Json.objectText, ← List.cons_append, List.getLast?_concat] at hc
    obtain rfl := Option.some.inj hc
    rfl

theorem solid_edge (e : Edge) : Solid (Json.chars e.toJson.pieces) := by
  have hline : '\n' ∉ Json.chars e.toJson.pieces := by
    simp [Edge.toJson, Method.toJson, Kind.toJson, Json.Value.pieces, Json.memberPieces,
      newline_notMem_textPieces]
  rw [Edge.toJson, Json.chars_object] at hline ⊢
  exact solid_objectText hline

/-- A text that captures a call graph: its header as an object on one line, and its edges as they are
serialized. -/
inductive Captures (header : Header) (edges : List Edge) (text : String) : Prop
  | laid (head : List Char) (hhead : header.Written head) (hline : '\n' ∉ head)
    (htext : Laid (head :: edges.map fun e => e.toJson.render.toList) text.toList)

private theorem throughFailure_edges {found : List Entry} {edges : List Edge}
    (htexts : found.map Entry.text? = edges.map fun e => some (Json.chars e.toJson.pieces))
    (hkinds : ∀ e ∈ edges, ∃ label, e.kind = Kind.ofLabel label) :
    throughFailure (found.map Entry.edge) = edges.map .ok := by
  induction edges generalizing found with
  | nil =>
    obtain rfl : found = [] := by simpa using htexts
    rfl
  | cons e edges ih =>
    obtain ⟨⟨number, text?⟩, later, rfl, htext, hlater⟩ := List.map_eq_cons_iff.mp htexts
    obtain ⟨label, hkind⟩ := hkinds e List.mem_cons_self
    have hparse := Json.parse_of_reads (reads_edge hkind)
    subst htext
    rw [List.map_cons, Entry.edge, hparse, Except.mapError, throughFailure,
      ih hlater fun e he => hkinds e (List.mem_cons_of_mem _ he), List.map_cons]

namespace Stream

/-- A captured call graph is read back: its header, each of its edges in order, and no fault. -/
theorem openBytes_captures {header : Header} {edges : List Edge} {text : String}
    (hkinds : ∀ e ∈ edges, ∃ label, e.kind = Kind.ofLabel label) (htext : Captures header edges text) :
    (∃ s, openBytes (bytesOf text) = .ok s ∧ s.header = header ∧ s.items = edges.map .ok ∧
      ∀ calls, yielded next s calls = edges[calls]?.map .ok) ∧
    Source.ofCapture (bytesOf text) =
      .ok ⟨header.edges.toNat, header.methods.toNat, edges.map .ok⟩ := by
  obtain ⟨head, hhead, hline, hlaid⟩ := htext
  simp only [Json.toList_render] at hlaid
  have hsolid : ∀ record ∈ head :: edges.map fun e => Json.chars e.toJson.pieces, Solid record := by
    obtain ⟨⟩ := hhead
    simpa using ⟨solid_objectText hline, fun e _ => solid_edge e⟩
  have htexts := texts_of_laid hlaid hsolid 0
  rw [← bytesOf_eq] at htexts
  obtain ⟨⟨number, text?⟩, later, hentries, rfl, hlater⟩ := List.map_eq_cons_iff.mp htexts
  have hbatch : batch (splitLines (bytesOf text)) = .ok (header, edges.map .ok) := by
    rw [batch, hentries]
    simp [Entry.header, Json.parse_of_reads hhead.reads, Except.mapError, Except.map,
      throughFailure_edges (by simpa [Function.comp_def] using hlater) hkinds]
  have hopen := openBytes_eq (bytesOf text)
  rw [hbatch] at hopen
  cases hs : openBytes (bytesOf text) with
  | error e =>
    rw [hs] at hopen
    cases hopen
  | ok s =>
    rw [hs] at hopen
    obtain ⟨rfl, hpending⟩ := Prod.mk.inj (Except.ok.inj hopen)
    refine ⟨⟨s, rfl, rfl, s.items_eq.trans hpending, fun calls => ?_⟩, ?_⟩
    · simp only [yields.yielded_eq, hpending, List.getElem?_map]
    · simp [Source.ofCapture, hs, Source.ofItems, s.items_eq, hpending, Except.mapError]

/-- A call between methods whose names would end a line, a text or an object if they stood as they are. -/
private def oddCall : Edge :=
  ⟨⟨"p.A", "f\n\u2028", "", "\"\x7d"⟩, ⟨"q.B", "g\\", "q", "\u0085\r\n"⟩, .other "Thread_Fake"⟩

private def oddEdges : Json.Member :=
  ⟨"edges", ['2'], [' '], [], [], ['\r']⟩

private def oddMethods : Json.Member :=
  ⟨"reachable_methods", ['7'], [' '], ['\t'], [' '], []⟩

private def oddHeader : String :=
  "\x7b \"reachable_methods\"\t: 7, \"edges\":2\r\x7d"

private def oddText : String :=
  "\u00A0\n" ++ "\u2003" ++ oddHeader ++ "\u0085\r\n" ++ "\t" ++ oddCall.toJson.render ++ "\r\n" ++ "\n" ++
    oddCall.toJson.render

theorem openBytes_captures_oddCall :
    (∀ e ∈ [oddCall, oddCall], ∃ label, e.kind = Kind.ofLabel label) ∧
    Captures ⟨2, 7⟩ [oddCall, oddCall] oddText ∧
    Source.ofCapture (bytesOf oddText) = .ok ⟨2, 7, [.ok oddCall, .ok oddCall]⟩ := by
  have hkinds : ∀ e ∈ [oddCall, oddCall], ∃ label, e.kind = Kind.ofLabel label := by
    have hkind : oddCall.kind = Kind.ofLabel "Thread_Fake" := by decide +kernel
    simpa using ⟨_, hkind⟩
  have hgap {s : List Char} (h : s.all Json.isBlank) : Json.Gap s := by
    simpa [Json.Gap] using h
  have hmargin {s : List Char} (h : s.all fun c => Text.isBlank c && c != '\n') : Margin s := by
    simpa [Margin] using h
  have hhead : Header.Written ⟨2, 7⟩ oddHeader.toList := by
    have hmembers : oddHeader.toList = Json.objectText [oddMethods, oddEdges] := by decide +kernel
    rw [hmembers]
    exact .object oddEdges oddMethods ⟨rfl, by decide +kernel⟩ ⟨rfl, by decide +kernel⟩
      ⟨⟨hgap rfl, hgap rfl, hgap rfl, hgap rfl⟩, ⟨hgap rfl, hgap rfl, hgap rfl, hgap rfl⟩⟩ _ (.inr rfl)
  have hlines : oddText.toList =
      ['\u00A0'] ++ '\n' :: (['\u2003'] ++ oddHeader.toList ++ ['\u0085', '\r'] ++ '\n' ::
        (['\t'] ++ oddCall.toJson.render.toList ++ ['\r'] ++ '\n' :: ([] ++ '\n' ::
          ([] ++ oddCall.toJson.render.toList ++ [])))) := by
    simp [oddText]
  have hcaptures : Captures ⟨2, 7⟩ [oddCall, oddCall] oddText := by
    refine .laid oddHeader.toList hhead (by decide +kernel) ?_
    rw [hlines]
    refine .blank (hmargin rfl) (.record (hmargin rfl) (hmargin rfl) ?_)
    refine .record (hmargin rfl) (hmargin rfl) (.blank (hmargin rfl) ?_)
    exact .last (hmargin rfl) (hmargin rfl)
  exact ⟨hkinds, hcaptures, (openBytes_captures hkinds hcaptures).2⟩

end Stream
end Capture
end CallGraph
