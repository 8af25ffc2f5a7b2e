import CallGraph.Proofs.Capture.Lines
import CallGraph.Proofs.Text.ByteOrder
import CallGraph.Proofs.Yield

/-!
A captured call graph, decoded as a whole from its numbered lines and call by call from its bytes.
-/
namespace CallGraph.Capture

/-- The results up to the first failure, which is the last of them. -/
def throughFailure {ε α : Type} : List (Except ε α) → List (Except ε α)
  | [] => []
  | .error e :: _ => [.error e]
  | .ok a :: rest => .ok a :: throughFailure rest

theorem length_throughFailure_le {ε α : Type} (results : List (Except ε α)) :
    (throughFailure results).length ≤ results.length := by
  induction results with
  | nil => rfl
  | cons result rest ih => cases result <;> simp [throughFailure, ih]

theorem throughFailure_append {ε α : Type} {e : ε} {results : List (Except ε α)}
    (h : .error e ∈ throughFailure results) (more : List (Except ε α)) :
    throughFailure (results ++ more) = throughFailure results := by
  induction results with
  | nil => cases h
  | cons result rest ih =>
    cases result with
    | error f => rfl
    | ok a =>
      have hrest : .error e ∈ throughFailure rest := by simpa [throughFailure] using h
      simp [throughFailure, ih hrest]

namespace Entry

def header : Entry → Except EngineError Header
  | ⟨_, none⟩ => .error (.unreadableHeader .notUtf8)
  | ⟨number, some text⟩ => (Json.parse Header.schema.read text).mapError (.invalidHeader number)

def edge : Entry → Except EngineError Edge
  | ⟨number, none⟩ => .error (.unreadableAfter (number - 1) .notUtf8)
  | ⟨number, some text⟩ => (Json.parse edgeSchema.read text).mapError (.invalidEdge number)

end Entry

/-- The results of the lines behind a header, where `count` lines stand before them. -/
def decoded (count : ℕ) (lines : List (List UInt8)) : List (Except EngineError Edge) :=
  throughFailure ((entries count lines).map Entry.edge)

/-- The header of some lines and the results of those behind it. -/
def batch (lines : List (List UInt8)) : Except EngineError (Header × List (Except EngineError Edge)) :=
  match entries 0 lines with
  | [] => .error .noHeader
  | first :: later => first.header.map fun header => (header, throughFailure (later.map Entry.edge))

namespace Stream

def pending (s : Stream) : List (Except EngineError Edge) :=
  if s.ended then [] else decoded s.lines (splitLines s.unread)

/-- Each call yields the next result, and nothing once a fault or the end has been met. -/
theorem yields : Yields next pending := by
  intro s
  unfold next pending decoded
  by_cases hended : s.ended
  · simp [hended]
  · have hentries := entries_nextLine s.lines s.unread
    rw [if_neg hended, if_neg hended, ← hentries]
    cases nextLine s.lines s.unread with
    | finished => simp [NextLine.entries, throughFailure]
    | undecodable before rest => simp [NextLine.entries, Entry.edge, throughFailure]
    | text number text rest =>
      cases hparse : Json.parse edgeSchema.read text <;>
        simp [NextLine.entries, Entry.edge, Except.mapError, throughFailure, hparse, hended]

theorem length_pending_le (s : Stream) : s.pending.length ≤ s.steps := by
  unfold pending steps
  split_ifs
  · exact Nat.zero_le _
  · calc (decoded s.lines (splitLines s.unread)).length
      _ ≤ (entries s.lines (splitLines s.unread)).length := by
        simpa [decoded] using
          length_throughFailure_le ((entries s.lines (splitLines s.unread)).map Entry.edge)
      _ ≤ (splitLines s.unread).length := length_entries_le ..
      _ ≤ s.unread.length := length_splitLines_le _
      _ ≤ s.unread.length + 2 := Nat.le_add_right ..

/-- The whole list of results is what the calls yield. -/
theorem items_eq (s : Stream) : s.items = s.pending :=
  yields.drain_eq s.length_pending_le

/-- Opening reads the header of the batch and leaves the rest to come. -/
theorem openBytes_eq (bytes : List UInt8) :
    (openBytes bytes).map (fun s => (s.header, s.pending)) = batch (splitLines bytes) := by
  unfold openBytes batch
  rw [← entries_nextLine]
  cases nextLine 0 bytes with
  | finished => rfl
  | undecodable before rest => rfl
  | text number text rest =>
    cases hparse : Json.parse Header.schema.read text <;>
      simp [NextLine.entries, Entry.header, Except.mapError, Except.map, pending, decoded, hparse]

/-- What a reader of some bytes sees: the refusal, or the header and the answer to each call. -/
def observed (bytes : List UInt8) :
    Except EngineError (Header × (ℕ → Option (Except EngineError Edge))) :=
  (openBytes bytes).map fun s => (s.header, yielded next s)

theorem observed_eq (bytes : List UInt8) :
    observed bytes = (batch (splitLines bytes)).map fun r => (r.1, fun calls => r.2[calls]?) := by
  rw [← openBytes_eq, observed]
  cases openBytes bytes with
  | error e => rfl
  | ok s => exact congrArg (fun answers => Except.ok (s.header, answers)) (yields.yielded_eq s)

end Stream

/-- Lines that hold edges, one each, and blank lines anywhere between them. -/
inductive Holds : List (List UInt8) → List Edge → Prop
  | nil : Holds [] []
  | blank {line lines edges} (hblank : lineText? line = some []) (hrest : Holds lines edges) :
    Holds (line :: lines) edges
  | edge {line lines edges text e} (htext : lineText? line = some text) (hne : text ≠ [])
    (hparse : Json.parse edgeSchema.read text = .ok e) (hrest : Holds lines edges) :
    Holds (line :: lines) (e :: edges)

/-- What is yielded for a line that holds no edge, where `before` lines stand in front of it. -/
inductive Faulty (before : ℕ) (line : List UInt8) (e : EngineError) : Prop
  | record (text : List Char) (fault : Json.Fault) (htext : lineText? line = some text)
    (hne : text ≠ []) (hparse : Json.parse edgeSchema.read text = .error fault)
    (he : e = .invalidEdge (before + 1) fault)
    (hmessage : e.message = "line " ++ toString (before + 1) ++ ": invalid edge: " ++ fault.describe)
  | bytes (htext : lineText? line = none) (he : e = .unreadableAfter before .notUtf8)
    (hmessage : e.message = "failed to read call graph after line " ++ toString before ++ ": " ++
      "stream did not contain valid UTF-8")

/-- The results of lines that all hold edges, or of lines with a faulty one that ends them. -/
inductive Outcome (before : ℕ) (lines : List (List UInt8)) (results : List (Except EngineError Edge)) :
    Prop
  | whole (edges : List Edge) (hlines : Holds lines edges) (hresults : results = edges.map .ok)
  | part (good : List (List UInt8)) (line : List UInt8) (unseen : List (List UInt8))
    (edges : List Edge) (e : EngineError) (hlines : lines = good ++ line :: unseen)
    (hgood : Holds good edges) (hfault : Faulty (before + good.length) line e)
    (hresults : results = edges.map .ok ++ [.error e])

theorem decoded_cons_blank {count : ℕ} {line : List UInt8} (lines : List (List UInt8))
    (hblank : lineText? line = some []) : decoded count (line :: lines) = decoded (count + 1) lines := by
  rw [decoded, entries_cons, if_pos hblank]
  rfl

theorem decoded_cons {count : ℕ} {line : List UInt8} (lines : List (List UInt8))
    (hne : lineText? line ≠ some []) :
    decoded count (line :: lines) =
      throughFailure (Entry.edge ⟨count + 1, lineText? line⟩ ::
        (entries (count + 1) lines).map Entry.edge) := by
  rw [decoded, entries_cons, if_neg hne]
  rfl

/-- One more line in front that yields nothing but its edges leaves the kind of outcome. -/
private theorem Outcome.cons {before : ℕ} {line : List UInt8} {lines : List (List UInt8)}
    {results : List (Except EngineError Edge)} (front : List Edge)
    (hfront : ∀ {lines edges}, Holds lines edges → Holds (line :: lines) (front ++ edges))
    (h : Outcome (before + 1) lines results) :
    Outcome before (line :: lines) (front.map .ok ++ results) := by
  rcases h with ⟨edges, hlines, rfl⟩ | ⟨good, bad, unseen, edges, e, rfl, hgood, hfault, rfl⟩
  · exact .whole (front ++ edges) (hfront hlines) (by simp)
  · have hcount : before + (line :: good).length = before + 1 + good.length := by
      rw [List.length_cons]
      omega
    exact .part (line :: good) bad unseen (front ++ edges) e rfl (hfront hgood) (hcount ▸ hfault)
      (by simp)

theorem outcome_decoded (before : ℕ) (lines : List (List UInt8)) :
    Outcome before lines (decoded before lines) := by
  induction lines generalizing before with
  | nil => exact .whole [] .nil rfl
  | cons line lines ih =>
    rcases htext : lineText? line with _ | text
    · rw [decoded_cons lines (by simp [htext]), htext]
      exact .part [] line lines [] (.unreadableAfter before .notUtf8) rfl .nil (.bytes htext rfl rfl) rfl
    · by_cases hne : text = []
      · subst hne
        rw [decoded_cons_blank lines htext]
        exact (ih (before + 1)).cons [] (.blank htext)
      · rw [decoded_cons lines (by simp [htext, hne]), htext]
        rcases hparse : Json.parse edgeSchema.read text with fault | e
        · simp only [Entry.edge, hparse, Except.mapError, throughFailure]
          exact .part [] line lines [] _ rfl .nil (.record text fault htext hne hparse rfl rfl) rfl
        · simp only [Entry.edge, hparse, Except.mapError, throughFailure]
          exact (ih (before + 1)).cons [e] (.edge htext hne hparse)

theorem entries_append (count : ℕ) (lines more : List (List UInt8)) :
    entries count (lines ++ more) = entries count lines ++ entries (count + lines.length) more := by
  induction lines generalizing count with
  | nil => rfl
  | cons line lines ih =>
    have hcount : count + 1 + lines.length = count + (line :: lines).length := by
      rw [List.length_cons]
      omega
    rw [List.cons_append, entries_cons, entries_cons, ih, hcount, List.append_assoc]

theorem entries_of_blanks (count : ℕ) {blanks : List (List UInt8)}
    (hblanks : ∀ blank ∈ blanks, lineText? blank = some []) : entries count blanks = [] := by
  induction blanks generalizing count with
  | nil => rfl
  | cons blank blanks ih =>
    rw [entries_cons, if_pos (hblanks blank List.mem_cons_self), List.nil_append]
    exact ih (count + 1) fun b hb => hblanks b (List.mem_cons_of_mem _ hb)

/-- The entries from the first line that is not blank. -/
theorem entries_behind_blanks {blanks : List (List UInt8)} {line : List UInt8}
    (hblanks : ∀ blank ∈ blanks, lineText? blank = some []) (hne : lineText? line ≠ some [])
    (later : List (List UInt8)) :
    entries 0 (blanks ++ line :: later) =
      ⟨blanks.length + 1, lineText? line⟩ :: entries (blanks.length + 1) later := by
  rw [entries_append, entries_of_blanks 0 hblanks, entries_cons, if_neg hne, Nat.zero_add]
  rfl

/-- Lines without a header: all are blank, or the first that is not is no header. -/
inductive Headless (lines : List (List UInt8)) : Prop
  | blank (hblanks : ∀ line ∈ lines, lineText? line = some [])
  | bytes (blanks : List (List UInt8)) (line : List UInt8) (later : List (List UInt8))
    (hlines : lines = blanks ++ line :: later) (hblanks : ∀ blank ∈ blanks, lineText? blank = some [])
    (htext : lineText? line = none)
  | record (blanks : List (List UInt8)) (line : List UInt8) (later : List (List UInt8))
    (text : List Char) (fault : Json.Fault) (hlines : lines = blanks ++ line :: later)
    (hblanks : ∀ blank ∈ blanks, lineText? blank = some []) (htext : lineText? line = some text)
    (hne : text ≠ []) (hparse : Json.parse Header.schema.read text = .error fault)

structure Headed (lines blanks : List (List UInt8)) (header : Header) (later : List (List UInt8)) :
    Prop where
  before : ∀ blank ∈ blanks, lineText? blank = some []
  found : ∃ line text, lines = blanks ++ line :: later ∧ lineText? line = some text ∧ text ≠ [] ∧
    Json.parse Header.schema.read text = .ok header

theorem batch_of_headless {lines : List (List UInt8)} (h : Headless lines) :
    ∃ e, batch lines = .error e := by
  unfold batch
  rcases h with hblanks | ⟨blanks, line, later, rfl, hblanks, htext⟩ |
    ⟨blanks, line, later, text, fault, rfl, hblanks, htext, hne, hparse⟩
  · rw [entries_of_blanks 0 hblanks]
    exact ⟨_, rfl⟩
  · rw [entries_behind_blanks hblanks (by simp [htext]), htext]
    exact ⟨_, rfl⟩
  · rw [entries_behind_blanks hblanks (by simp [htext, hne]), htext]
    simp [Entry.header, hparse, Except.mapError, Except.map]

theorem batch_of_headed {lines blanks later : List (List UInt8)} {header : Header}
    (h : Headed lines blanks header later) :
    batch lines = .ok (header, decoded (blanks.length + 1) later) := by
  obtain ⟨hblanks, line, text, rfl, htext, hne, hparse⟩ := h
  unfold batch
  rw [entries_behind_blanks hblanks (by simp [htext, hne]), htext]
  simp [Entry.header, hparse, Except.mapError, Except.map, decoded]

/-- Lines have no header, or they have one. -/
theorem headless_or_headed (lines : List (List UInt8)) :
    Headless lines ∨ ∃ blanks header later, Headed lines blanks header later := by
  cases hfind : lines.find? fun line => lineText? line ≠ some [] with
  | none => exact .inl (.blank (by simpa using hfind))
  | some line =>
    obtain ⟨hne, blanks, later, hlines, hblanks⟩ := List.find?_eq_some_iff_append.mp hfind
    replace hblanks : ∀ blank ∈ blanks, lineText? blank = some [] := by simpa using hblanks
    rcases htext : lineText? line with _ | text
    · exact .inl (.bytes blanks line later hlines hblanks htext)
    have htextne : text ≠ [] := by
      rintro rfl
      simp [htext] at hne
    rcases hparse : Json.parse Header.schema.read text with fault | header
    · exact .inl (.record blanks line later text fault hlines hblanks htext htextne hparse)
    · exact .inr ⟨blanks, header, later, hblanks, line, text, hlines, htext, htextne, hparse⟩

/-- Lines that some lines with a fault in their results are followed by change nothing. -/
theorem batch_append {lines : List (List UInt8)}
    (hfault : ∀ header results, batch lines = .ok (header, results) → ∃ e, .error e ∈ results)
    (hheader : batch lines ≠ .error .noHeader) (more : List (List UInt8)) :
    batch (lines ++ more) = batch lines := by
  unfold batch at *
  rw [entries_append]
  cases hentries : entries 0 lines with
  | nil => simp [hentries] at hheader
  | cons first later =>
    simp only [hentries] at hfault
    rw [List.cons_append]
    cases hfirst : first.header with
    | error e => simp [hfirst, Except.map]
    | ok header =>
      obtain ⟨e, he⟩ := hfault header (throughFailure (later.map Entry.edge)) (by rw [hfirst]; rfl)
      simp only [hfirst, List.map_append, throughFailure_append he]

namespace Stream

/-- Whether the results of some bytes are cut short by a line that cannot be read. -/
def Faulted (bytes : List UInt8) : Prop :=
  (∃ e ≠ .noHeader, openBytes bytes = .error e) ∨
    ∃ s calls e, openBytes bytes = .ok s ∧ yielded next s calls = some (.error e)

/-- A stream is refused if it has no header. -/
theorem openBytes_error_iff (bytes : List UInt8) :
    (∃ e, openBytes bytes = .error e) ↔ Headless (splitLines bytes) := by
  have hbatch := openBytes_eq bytes
  constructor
  · rintro ⟨e, he⟩
    rcases headless_or_headed (splitLines bytes) with h | ⟨blanks, header, later, h⟩
    · exact h
    · rw [he, batch_of_headed h] at hbatch
      cases hbatch
  · intro h
    obtain ⟨e, he⟩ := batch_of_headless h
    rw [he] at hbatch
    cases hopen : openBytes bytes with
    | error f => exact ⟨f, rfl⟩
    | ok s =>
      rw [hopen] at hbatch
      cases hbatch

theorem outcome_of_opened {bytes : List UInt8} {s : Stream} (hs : openBytes bytes = .ok s) :
    ∃ blanks later results, Headed (splitLines bytes) blanks s.header later ∧
      Outcome (blanks.length + 1) later results ∧ ∀ calls, yielded next s calls = results[calls]? := by
  have hbatch := openBytes_eq bytes
  rw [hs] at hbatch
  rcases headless_or_headed (splitLines bytes) with h | ⟨blanks, header, later, h⟩
  · obtain ⟨e, he⟩ := batch_of_headless h
    rw [he] at hbatch
    cases hbatch
  · rw [batch_of_headed h] at hbatch
    obtain ⟨rfl, hpending⟩ := Prod.mk.inj (Except.ok.inj hbatch)
    refine ⟨blanks, later, _, h, outcome_decoded (blanks.length + 1) later, fun calls => ?_⟩
    rw [yields.yielded_eq, hpending]

/-- Lines that are cut short by a fault show it in their batch. -/
theorem batch_of_faulted {bytes : List UInt8} (h : Faulted bytes) :
    (∀ header results, batch (splitLines bytes) = .ok (header, results) → ∃ e, .error e ∈ results) ∧
      batch (splitLines bytes) ≠ .error .noHeader := by
  have hbatch := openBytes_eq bytes
  rcases h with ⟨e, hne, he⟩ | ⟨s, calls, e, hs, hyield⟩
  · rw [he] at hbatch
    rw [← hbatch]
    exact ⟨nofun, fun hnone => hne (Except.error.inj hnone)⟩
  · rw [hs] at hbatch
    rw [← hbatch]
    refine ⟨fun header results hresults => ?_, nofun⟩
    obtain ⟨-, hpending⟩ := Prod.mk.inj (Except.ok.inj hresults)
    rw [yields.yielded_eq, hpending] at hyield
    exact ⟨e, List.mem_of_getElem? hyield⟩

/-- What comes behind the line feed of a line that cannot be read is not seen. -/
theorem observed_append {bytes : List UInt8} (hfaulted : Faulted bytes)
    (hlast : bytes.getLast? = some 10) (more : List UInt8) :
    observed (bytes ++ more) = observed bytes := by
  have hlines : splitLines (bytes ++ more) = splitLines bytes ++ splitLines more :=
    List.splitBy_append (by simp [hlast])
  obtain ⟨hfault, hheader⟩ := batch_of_faulted hfaulted
  rw [observed_eq, observed_eq, hlines, batch_append hfault hheader]

structure Decodes (bytes : List UInt8) : Prop where
  /-- A reader sees the header of the batch, then call by call its results, and nothing after them. -/
  results : observed bytes =
    (batch (splitLines bytes)).map fun r => (r.1, fun calls => r.2[calls]?)
  refused : (∃ e, openBytes bytes = .error e) ↔ Headless (splitLines bytes)
  /-- The lines behind the header yield edges up to the first line that is none, and its fault once. -/
  opened : ∀ s, openBytes bytes = .ok s → ∃ blanks later results,
    Headed (splitLines bytes) blanks s.header later ∧ Outcome (blanks.length + 1) later results ∧
    ∀ calls, yielded next s calls = results[calls]?
  /-- Whatever follows a line that cannot be read makes no difference. -/
  ignored : Faulted bytes → bytes.getLast? = some 10 → ∀ more, observed (bytes ++ more) = observed bytes

/-- Every stream of bytes is decoded like that. -/
theorem decodes (bytes : List UInt8) : Decodes bytes where
  results := observed_eq bytes
  refused := openBytes_error_iff bytes
  opened _ hs := outcome_of_opened hs
  ignored := observed_append

private def plainCall : Edge :=
  ⟨⟨"p.A", "f", "p", "a"⟩, ⟨"B", "g", "", "b"⟩, .static⟩

/-- A header, a call and a blank line, with white space around them that is not only ASCII. -/
private def threeLines : List UInt8 :=
  bytesOf ("\u0085 \x7b\"edges\":2,\"reachable_methods\":2\x7d\r\n" ++
    "\x7b\"src\":\x7b\"class\":\"p.A\",\"name\":\"f\",\"sig\":\"a\"\x7d," ++
    "\"tgt\":\x7b\"class\":\"B\",\"name\":\"g\",\"sig\":\"b\"\x7d,\"kind\":\"static\"\x7d\u00A0\n" ++
    "\t\u2003\r\n")

/-- Three lines with a record behind them that is broken off, and with bytes that are no text. -/
theorem decodes_threeLines :
    Decodes (threeLines ++ bytesOf "\x7b\"src\":\nnull\n") ∧ Decodes (threeLines ++ [32, 255, 10]) ∧
    observed (threeLines ++ bytesOf "\x7b\"src\":\nnull\n") = .ok (⟨2, 2⟩, fun calls =>
      [.ok plainCall, .error (.invalidEdge 4 ⟨.endInValue, 1, 7⟩)][calls]?) ∧
    observed (threeLines ++ [32, 255, 10]) = .ok (⟨2, 2⟩, fun calls =>
      [.ok plainCall, .error (.unreadableAfter 3 .notUtf8)][calls]?) := by
  have hrecord := decodes (threeLines ++ bytesOf "\x7b\"src\":\nnull\n")
  have hbytes := decodes (threeLines ++ [32, 255, 10])
  have hcut : batch (splitLines (threeLines ++ bytesOf "\x7b\"src\":\nnull\n")) =
      .ok (⟨2, 2⟩, [.ok plainCall, .error (.invalidEdge 4 ⟨.endInValue, 1, 7⟩)]) := by
    decide +kernel
  have hraw : batch (splitLines (threeLines ++ [32, 255, 10])) =
      .ok (⟨2, 2⟩, [.ok plainCall, .error (.unreadableAfter 3 .notUtf8)]) := by
    decide +kernel
  exact ⟨hrecord, hbytes, hrecord.results.trans (by rw [hcut]; rfl),
    hbytes.results.trans (by rw [hraw]; rfl)⟩

end Stream
end CallGraph.Capture
