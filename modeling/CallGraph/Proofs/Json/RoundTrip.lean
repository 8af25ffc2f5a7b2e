import CallGraph.Json.Grammar
import CallGraph.Proofs.Json.Quoted

/-! The grammar reads every value without numbers back from its written form. -/
namespace CallGraph.Json

inductive Value.Numberless : Value → Prop
  | null : Numberless .null
  | bool (b : Bool) : Numberless (.bool b)
  | text (s : String) : Numberless (.text s)
  | array {items : List Value} (h : ∀ v ∈ items, Numberless v) : Numberless (.array items)
  | object {members : List (String × Value)} (h : ∀ m ∈ members, Numberless m.2) :
    Numberless (.object members)

def separated (members : List (List String)) : List String :=
  [","].intercalate members

theorem itemPieces_eq (items : List Value) : itemPieces items = separated (items.map Value.pieces) := by
  induction items with
  | nil => rfl
  | cons v items ih =>
    cases items with
    | nil => simp [itemPieces, separated]
    | cons next rest => simp [itemPieces, ih, separated]

def memberPiece (m : String × Value) : List String :=
  textPieces m.1 ++ ":" :: m.2.pieces

theorem memberPieces_eq (members : List (String × Value)) :
    memberPieces members = separated (members.map memberPiece) := by
  induction members with
  | nil => rfl
  | cons m members ih =>
    cases members with
    | nil => simp [memberPieces, separated, memberPiece]
    | cons next rest => simp [memberPieces, ih, separated, memberPiece]

/-- One more member comes behind a comma, unless it is the first. -/
theorem separated_concat (members : List (List String)) (member : List String) :
    separated (members ++ [member]) =
      separated members ++ (if members.isEmpty then [] else [","]) ++ member := by
  induction members with
  | nil => simp [separated]
  | cons first members ih =>
    cases members with
    | nil => simp [separated]
    | cons next rest =>
      simp only [separated, List.cons_append, List.intercalate_cons_cons] at ih ⊢
      simp [ih]

/-- The first character of a written value: no blank, and no bracket that closes. -/
theorem chars_pieces_head {v : Value} (h : v.Numberless) :
    ∃ c rest, chars v.pieces = c :: rest ∧ isBlank c = false ∧ c ≠ ']' := by
  cases h with
  | null => exact ⟨'n', _, rfl, rfl, by decide⟩
  | bool b => cases b <;> exact ⟨_, _, rfl, rfl, by decide⟩
  | text s => exact ⟨'"', _, by rw [Value.pieces, chars_textPieces], rfl, by decide⟩
  | array _ => exact ⟨'[', _, rfl, rfl, by decide⟩
  | object _ => exact ⟨'\x7b', _, rfl, rfl, by decide⟩

theorem skipBlank_cons {c : Char} (h : isBlank c = false) (rest : List Char) :
    skipBlank (c :: rest) = c :: rest := by
  simp [skipBlank, h]

theorem quoted?_flatMap (s : String) (rest : List Char) :
    quoted? (s.toList.flatMap written ++ '"' :: rest) = some (s, rest) := by
  simp [quoted?, readQuoted_flatMap]

/-- A value is read back from the start of a text, given fuel for its length. -/
def ReadsBack (v : Value) : Prop :=
  ∀ fuel rest, 2 * (chars v.pieces).length ≤ fuel →
    value? fuel (chars v.pieces ++ rest) = some (v, rest)

private theorem items?_pieces {items : List Value} (hne : items ≠ [])
    (hitems : ∀ v ∈ items, ReadsBack v) (fuel : ℕ) (rest : List Char)
    (hf : 2 * (chars (itemPieces items)).length + 1 ≤ fuel) :
    items? fuel (chars (itemPieces items) ++ ']' :: rest) = some (items, rest) := by
  induction items generalizing fuel with
  | nil => exact absurd rfl hne
  | cons v items ih =>
    obtain ⟨fuel, rfl⟩ : ∃ n, fuel = n + 1 := ⟨fuel - 1, by omega⟩
    have hv := hitems v (List.mem_cons_self ..)
    cases items with
    | nil =>
      have hread := hv fuel (']' :: rest) (by simp only [itemPieces] at hf; omega)
      simp only [itemPieces, items?, hread]
      rfl
    | cons next more =>
      have hlen : (chars (itemPieces (v :: next :: more))).length =
          (chars v.pieces).length + 1 + (chars (itemPieces (next :: more))).length := by
        simp [itemPieces]
        omega
      have hread := hv fuel (',' :: (chars (itemPieces (next :: more)) ++ ']' :: rest)) (by omega)
      have hrest := ih (by simp) (fun w hw => hitems w (List.mem_cons_of_mem _ hw)) fuel
        (by omega)
      have htext : chars (itemPieces (v :: next :: more)) ++ ']' :: rest =
          chars v.pieces ++ ',' :: (chars (itemPieces (next :: more)) ++ ']' :: rest) := by
        simp [itemPieces]
      rw [htext, items?, hread]
      simp only [skipBlank_cons (show isBlank ',' = false from rfl), hrest, Option.map_some]

private theorem members?_pieces {members : List (String × Value)} (hne : members ≠ [])
    (hmembers : ∀ m ∈ members, ReadsBack m.2) (fuel : ℕ) (rest : List Char)
    (hf : 2 * (chars (memberPieces members)).length + 1 ≤ fuel) :
    members? fuel (chars (memberPieces members) ++ '\x7d' :: rest) = some (members, rest) := by
  induction members generalizing fuel with
  | nil => exact absurd rfl hne
  | cons m members ih =>
    obtain ⟨key, v⟩ := m
    obtain ⟨fuel, rfl⟩ : ∃ n, fuel = n + 1 := ⟨fuel - 1, by omega⟩
    have hv : ReadsBack v := hmembers (key, v) (List.mem_cons_self ..)
    have hquote : isBlank '"' = false := rfl
    have hcolon : isBlank ':' = false := rfl
    cases members with
    | nil =>
      have hlen : (chars v.pieces).length ≤ (chars (memberPieces [(key, v)])).length := by
        simp [memberPieces]
        omega
      have hread := hv fuel ('\x7d' :: rest) (by omega)
      have htext : chars (memberPieces [(key, v)]) ++ '\x7d' :: rest =
          '"' :: (key.toList.flatMap written ++ '"' :: ':' :: (chars v.pieces ++ '\x7d' :: rest)) := by
        simp [memberPieces, chars_textPieces]
      rw [htext, members?]
      simp only [skipBlank_cons hquote, quoted?_flatMap, skipBlank_cons hcolon, hread]
      rfl
    | cons next more =>
      have hlen : (chars v.pieces).length + 1 + (chars (memberPieces (next :: more))).length ≤
          (chars (memberPieces ((key, v) :: next :: more))).length := by
        simp [memberPieces]
        omega
      have hread := hv fuel (',' :: (chars (memberPieces (next :: more)) ++ '\x7d' :: rest)) (by omega)
      have hrest := ih (by simp) (fun w hw => hmembers w (List.mem_cons_of_mem _ hw)) fuel
        (by omega)
      have htext : chars (memberPieces ((key, v) :: next :: more)) ++ '\x7d' :: rest =
          '"' :: (key.toList.flatMap written ++ '"' :: ':' ::
            (chars v.pieces ++ ',' :: (chars (memberPieces (next :: more)) ++ '\x7d' :: rest))) := by
        simp [memberPieces, chars_textPieces]
      rw [htext, members?]
      simp only [skipBlank_cons hquote, quoted?_flatMap, skipBlank_cons hcolon, hread,
        skipBlank_cons (show isBlank ',' = false from rfl), hrest, Option.map_some]

private theorem readsBack_array {items : List Value} (hitems : ∀ v ∈ items, v.Numberless)
    (hread : ∀ v ∈ items, ReadsBack v) : ReadsBack (.array items) := by
  intro fuel rest hf
  have htext : chars (Value.array items).pieces ++ rest =
      '[' :: (chars (itemPieces items) ++ ']' :: rest) := by
    simp [Value.pieces]
  have hlen : (chars (Value.array items).pieces).length = (chars (itemPieces items)).length + 2 := by
    simp [Value.pieces]
  obtain ⟨fuel, rfl⟩ : ∃ n, fuel = n + 1 := ⟨fuel - 1, by omega⟩
  rw [htext, value?, skipBlank_cons (show isBlank '[' = false from rfl)]
  simp only [Char.reduceEq, if_false, if_true]
  cases items with
  | nil => rfl
  | cons v items =>
    have hall := items?_pieces (List.cons_ne_nil v items) hread fuel rest (by omega)
    -- The first item shows that the list is not the empty one.
    obtain ⟨c, tail, hhead, hblank, hclose⟩ := chars_pieces_head (hitems v (List.mem_cons_self ..))
    obtain ⟨more, hmore⟩ : ∃ more, chars (itemPieces (v :: items)) ++ ']' :: rest = c :: more := by
      cases items <;> simp [itemPieces, hhead]
    rw [hmore] at hall ⊢
    rw [skipBlank_cons hblank]
    split
    · rename_i heq
      exact absurd (List.cons.inj heq).1 hclose
    · rw [hall]
      rfl

private theorem readsBack_object {members : List (String × Value)}
    (hread : ∀ m ∈ members, ReadsBack m.2) : ReadsBack (.object members) := by
  intro fuel rest hf
  have htext : chars (Value.object members).pieces ++ rest =
      '\x7b' :: (chars (memberPieces members) ++ '\x7d' :: rest) := by
    simp [Value.pieces]
  have hlen : (chars (Value.object members).pieces).length =
      (chars (memberPieces members)).length + 2 := by
    simp [Value.pieces]
  obtain ⟨fuel, rfl⟩ : ∃ n, fuel = n + 1 := ⟨fuel - 1, by omega⟩
  rw [htext, value?, skipBlank_cons (show isBlank '\x7b' = false from rfl)]
  simp only [Char.reduceEq, if_false, if_true]
  cases members with
  | nil => rfl
  | cons m members =>
    have hall := members?_pieces (List.cons_ne_nil m members) hread fuel rest (by omega)
    obtain ⟨more, hmore⟩ : ∃ more,
        chars (memberPieces (m :: members)) ++ '\x7d' :: rest = '"' :: more := by
      cases members <;> simp [memberPieces, chars_textPieces]
    rw [hmore] at hall ⊢
    rw [skipBlank_cons (show isBlank '"' = false from rfl)]
    simp [hall]

theorem Value.Numberless.readsBack {v : Value} (h : v.Numberless) : ReadsBack v := by
  induction h with
  | null =>
    intro fuel rest hf
    obtain ⟨fuel, rfl⟩ : ∃ n, fuel = n + 1 := ⟨fuel - 1, by simp [Value.pieces] at hf; omega⟩
    rfl
  | bool b =>
    intro fuel rest hf
    obtain ⟨fuel, rfl⟩ : ∃ n, fuel = n + 1 :=
      ⟨fuel - 1, by cases b <;> simp [Value.pieces] at hf <;> omega⟩
    cases b <;> rfl
  | text s =>
    intro fuel rest hf
    rw [Value.pieces, chars_textPieces] at hf ⊢
    obtain ⟨fuel, rfl⟩ : ∃ n, fuel = n + 1 := ⟨fuel - 1, by simp at hf; omega⟩
    have hread := quoted?_flatMap s rest
    rw [value?]
    simp [skipBlank_cons, isBlank, hread]
  | array hitems ih => exact readsBack_array hitems ih
  | object _ ih => exact readsBack_object ih

/-- The text of a value without numbers denotes that value. -/
theorem Value.Numberless.ofText?_pieces {v : Value} (h : v.Numberless) :
    Value.ofText? (chars v.pieces) = some v := by
  have hread := h.readsBack (2 * (chars v.pieces).length + 2) [] (by omega)
  rw [List.append_nil] at hread
  simp [ofText?, hread, skipBlank]

end CallGraph.Json
