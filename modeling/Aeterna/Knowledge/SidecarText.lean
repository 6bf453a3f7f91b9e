import Aeterna.Knowledge.Repository
import Aeterna.Lib.JsonText

namespace Aeterna
open Lib SummaryDepth Option
open List hiding all

def writeNumber : Int → List Char
  | .ofNat n => Nat.toDigits 10 n
  | .negSucc n => '-' :: Nat.toDigits 10 (n + 1)

def readNumber : List Char → Int × List Char
  | '-' :: digits => (-(Nat.ofDigitChars 10 (digits.takeWhile Char.isDigit) 0), digits.dropWhile Char.isDigit)
  | digits => (Nat.ofDigitChars 10 (digits.takeWhile Char.isDigit) 0, digits.dropWhile Char.isDigit)

namespace Json

mutual

def write : Json → List Char
  | null => "null".toList
  | bool true => "true".toList
  | bool false => "false".toList
  | num value => writeNumber value
  | str value => Wire.string.write value
  | arr [] => "[]".toList
  | arr (item :: rest) => '[' :: (item.write ++ writeItems rest)
  | obj [] => "\x7b\x7d".toList
  | obj ((name, value) :: rest) => '\x7b' :: (Wire.string.write name ++ ':' :: (value.write ++ writeFields rest))

def writeItems : List Json → List Char
  | [] => [']']
  | item :: rest => ',' :: (item.write ++ writeItems rest)

def writeFields : List (String × Json) → List Char
  | [] => ['\x7d']
  | (name, value) :: rest => ',' :: (Wire.string.write name ++ ':' :: (value.write ++ writeFields rest))

end

mutual

/-- A value at the start of a text. -/
def read : Nat → List Char → Option (Json × List Char)
  | 0, _ => none
  | fuel + 1, text =>
    match text with
    | 'n' :: rest => (Wire.expect "ull".toList rest).map (fun rest => (null, rest))
    | 't' :: rest => (Wire.expect "rue".toList rest).map (fun rest => (bool true, rest))
    | 'f' :: rest => (Wire.expect "alse".toList rest).map (fun rest => (bool false, rest))
    | '"' :: rest => (unescape rest).map (fun got => (str (String.ofList got.1), got.2))
    | '[' :: ']' :: rest => some (arr [], rest)
    | '[' :: rest => (read fuel rest).bind (fun first =>
      (readItems fuel first.2).map (fun more => (arr (first.1 :: more.1), more.2)))
    | '\x7b' :: '\x7d' :: rest => some (obj [], rest)
    | '\x7b' :: rest => (readField fuel rest).bind (fun first =>
      (readFields fuel first.2).map (fun more => (obj (first.1 :: more.1), more.2)))
    | text => let got := readNumber text; some (num got.1, got.2)

def readItems : Nat → List Char → Option (List Json × List Char)
  | 0, _ => none
  | fuel + 1, text =>
    match text with
    | ']' :: rest => some ([], rest)
    | ',' :: rest => (read fuel rest).bind (fun item =>
      (readItems fuel item.2).map (fun more => (item.1 :: more.1, more.2)))
    | _ => none

def readField : Nat → List Char → Option ((String × Json) × List Char)
  | 0, _ => none
  | fuel + 1, text => (Wire.string.read text).bind (fun name =>
    (Wire.expect [':'] name.2).bind (fun rest => (read fuel rest).map (fun value => ((name.1, value.1), value.2))))

def readFields : Nat → List Char → Option (List (String × Json) × List Char)
  | 0, _ => none
  | fuel + 1, text =>
    match text with
    | '\x7d' :: rest => some ([], rest)
    | ',' :: rest => (readField fuel rest).bind (fun field =>
      (readFields fuel field.2).map (fun more => (field.1 :: more.1, more.2)))
    | _ => none

end

def parse (text : String) : Except String Json :=
  match read text.length text.toList with
  | some (value, []) => .ok value
  | _ => .error "Serialization error: unexpected text"

def render (value : Json) : String := String.ofList value.write

end Json

def Undigited (rest : List Char) : Prop := ∀ c ∈ rest.head?, c.isDigit = false

theorem readNumber_writeNumber (value : Int) {rest : List Char} (undigited : Undigited rest) :
    readNumber (writeNumber value ++ rest) = (value, rest) := by
  have digit : ∀ n, ∀ c ∈ Nat.toDigits 10 n, c.isDigit = true :=
    fun n c member => Nat.isDigit_of_mem_toDigits (by decide) (by decide) member
  have taken : ∀ n, ((Nat.toDigits 10 n ++ rest).takeWhile Char.isDigit) = Nat.toDigits 10 n := by
    intro n
    rw [List.takeWhile_append_of_pos (digit n)]
    cases rest with
    | nil => simp
    | cons c rest => simp [undigited c rfl]
  have dropped : ∀ n, ((Nat.toDigits 10 n ++ rest).dropWhile Char.isDigit) = rest := by
    intro n
    rw [List.dropWhile_append_of_pos (digit n)]
    cases rest with
    | nil => simp
    | cons c rest => simp [undigited c rfl]
  cases value with
  | negSucc n =>
    have value := Nat.ofDigitChars_toDigits (b := 10) (n := n + 1) (by decide) (by decide)
    simp only [writeNumber, List.cons_append, readNumber, taken, dropped, value]
    rfl
  | ofNat n =>
    have value := Nat.ofDigitChars_toDigits (b := 10) (n := n) (by decide) (by decide)
    have unsigned : ∀ tail, Nat.toDigits 10 n ++ rest ≠ '-' :: tail := by
      intro tail same
      obtain ⟨first, others, shape⟩ := List.exists_cons_of_ne_nil (Nat.toDigits_ne_nil (n := n) (b := 10))
      have sign := digit n first (by rw [shape]; exact List.mem_cons_self)
      rw [shape] at same
      simp only [List.cons_append, List.cons.injEq] at same
      rw [same.1] at sign
      exact absurd sign (by decide)
    simp only [writeNumber]
    unfold readNumber
    split
    · rename_i digits shape
      exact absurd shape (unsigned digits)
    · rw [taken, dropped, value]
      rfl

namespace Json

theorem write_head (value : Json) : ∃ c tail, value.write = c :: tail ∧ c ≠ ']' ∧ c ≠ '\x7d' := by
  cases value with
  | null => exact ⟨'n', "ull".toList, rfl, by decide, by decide⟩
  | bool value => cases value <;> exact ⟨_, _, rfl, by decide, by decide⟩
  | num value =>
    cases value with
    | negSucc n => exact ⟨'-', _, by rw [write, writeNumber], by decide, by decide⟩
    | ofNat n =>
      obtain ⟨c, tail, shape⟩ := List.exists_cons_of_ne_nil (Nat.toDigits_ne_nil (n := n) (b := 10))
      have digit : c.isDigit = true :=
        Nat.isDigit_of_mem_toDigits (b := 10) (n := n) (by decide) (by decide)
          (by rw [shape]; exact List.mem_cons_self)
      refine ⟨c, tail, by rw [write, writeNumber, shape], ?_, ?_⟩
      · rintro rfl
        exact absurd digit (by decide)
      · rintro rfl
        exact absurd digit (by decide)
  | str value => exact ⟨'"', _, by rw [write]; rfl, by decide, by decide⟩
  | arr items =>
    cases items with
    | nil => exact ⟨'[', [']'], by simp [write], by decide, by decide⟩
    | cons item items => exact ⟨'[', _, by rw [write], by decide, by decide⟩
  | obj fields =>
    cases fields with
    | nil => exact ⟨'\x7b', ['\x7d'], by simp [write], by decide, by decide⟩
    | cons field fields => exact ⟨'\x7b', _, by rw [write], by decide, by decide⟩

theorem undigited_items (items : List Json) (rest : List Char) : Undigited (writeItems items ++ rest) := by
  intro c here
  cases items with
  | nil =>
    simp only [writeItems, cons_append, head?_cons, mem_def, Option.some.injEq] at here
    subst here
    decide
  | cons item items =>
    simp only [writeItems, cons_append, head?_cons, mem_def, Option.some.injEq] at here
    subst here
    decide

theorem undigited_fields (fields : List (String × Json)) (rest : List Char) :
    Undigited (writeFields fields ++ rest) := by
  intro c here
  cases fields with
  | nil =>
    simp only [writeFields, cons_append, head?_cons, mem_def, Option.some.injEq] at here
    subst here
    decide
  | cons field fields =>
    simp only [writeFields, cons_append, head?_cons, mem_def, Option.some.injEq] at here
    subst here
    decide

variable {c : Char}

theorem read_number {tail : List Char} (fuel : Nat) (numeric : c = '-' ∨ c.isDigit = true) :
    read (fuel + 1) (c :: tail) = some (num (readNumber (c :: tail)).1, (readNumber (c :: tail)).2) := by
  have others : ∀ d : Char, d ≠ '-' → d.isDigit = false → c ≠ d := by
    rintro d sign digit rfl
    rcases numeric with same | same
    · exact sign same
    · rw [digit] at same
      cases same
  unfold read
  split
  all_goals first
    | rfl
    | (rename_i shape
       simp only [List.cons.injEq] at shape
       exact absurd shape.1 (others _ (by decide) (by decide)))

theorem read_open_array {tail : List Char} (fuel : Nat) (other : c ≠ ']') :
    read (fuel + 1) ('[' :: c :: tail) = (read fuel (c :: tail)).bind (fun first =>
    (readItems fuel first.2).map (fun more => (arr (first.1 :: more.1), more.2))) := by
  conv_lhs => unfold read
  split
  all_goals simp_all

theorem read_open_object (tail : List Char) (fuel : Nat) (other : c ≠ '\x7d') :
    read (fuel + 1) ('\x7b' :: c :: tail) = (readField fuel (c :: tail)).bind (fun first =>
      (readFields fuel first.2).map (fun more => (obj (first.1 :: more.1), more.2))) := by
  conv_lhs => unfold read
  split
  all_goals simp_all

theorem readField_write {name : String} {fuel : Nat} {text : List Char} :
    readField (fuel + 1) (Wire.string.write name ++ ':' :: text) =
      (read fuel text).map (fun value => ((name, value.1), value.2)) := by
  rw [readField, Wire.string.read_write]
  simp [Wire.expect]

theorem readFields_next {fuel : Nat} {text : List Char} : readFields (fuel + 1) (',' :: text) =
    (readField fuel text).bind (fun field =>
      (readFields fuel field.2).map (fun more => (field.1 :: more.1, more.2))) := by
  rw [readFields]

mutual

theorem read_write (value : Json) (fuel : Nat) (rest : List Char) (enough : value.write.length ≤ fuel)
    (undigited : Undigited rest) : read fuel (value.write ++ rest) = some (value, rest) := by
  obtain ⟨c, tail, shape, -⟩ := value.write_head
  cases fuel with
  | zero =>
    rw [shape] at enough
    simp at enough
  | succ fuel =>
  match value with
  | null => simp [write, read, Wire.expect]
  | bool true => simp [write, read, Wire.expect]
  | bool false => simp [write, read, Wire.expect]
  | str value => simp [write, read, Wire.string, unescape_escape]
  | num value =>
    have back := readNumber_writeNumber value undigited
    have numeric : c = '-' ∨ c.isDigit = true := by
      cases value with
      | negSucc n =>
        simp only [write, writeNumber, List.cons.injEq] at shape
        exact Or.inl shape.1.symm
      | ofNat n =>
        simp only [write, writeNumber] at shape
        exact Or.inr (Nat.isDigit_of_mem_toDigits (b := 10) (n := n) (by decide) (by decide)
          (by rw [shape]; exact mem_cons_self))
    rw [shape, cons_append, read_number fuel numeric, ← cons_append, ← shape, write, back]
  | arr [] => simp [write, read]
  | arr (item :: items) =>
    obtain ⟨d, others, head, bracket, -⟩ := item.write_head
    have long : item.write.length + (writeItems items).length ≤ fuel := by
      simpa [write] using enough
    have first := read_write item fuel (writeItems items ++ rest) (by omega) (undigited_items items rest)
    have more := readItems_write items fuel rest (by omega)
    rw [head] at first
    rw [write, head]
    simp only [cons_append, append_assoc] at first ⊢
    rw [read_open_array fuel bracket, first, bind_some, more, map_some]
  | obj [] => simp [write, read]
  | obj ((name, field) :: fields) =>
    cases fuel with
    | zero =>
      simp [write] at enough
    | succ fuel =>
    have long : field.write.length + (writeFields fields).length ≤ fuel := by
      simp only [write, length_cons, length_append] at enough
      omega
    have first := read_write field fuel (writeFields fields ++ rest) (by omega) (undigited_fields fields rest)
    have more := readFields_write fields (fuel + 1) rest (by omega)
    have text : (obj ((name, field) :: fields)).write ++ rest =
        '\x7b' :: (Wire.string.write name ++ ':' :: (field.write ++ (writeFields fields ++ rest))) := by
      simp [write]
    have opened := read_open_object (c := '"') ((name.toList.flatMap escapeChar ++ ['"']) ++
      ':' :: (field.write ++ (writeFields fields ++ rest))) (fuel + 1) (by decide)
    rw [text]
    refine opened.trans ?_
    rw [← cons_append]
    show (readField (fuel + 1) (Wire.string.write name ++ _)).bind _ = _
    rw [readField_write, first, map_some, bind_some, more, map_some]

theorem readItems_write (items : List Json) (fuel : Nat) (rest : List Char)
    (enough : (writeItems items).length ≤ fuel) : readItems fuel (writeItems items ++ rest) = some (items, rest) := by
  cases fuel with
  | zero => cases items <;> simp [writeItems] at enough
  | succ fuel =>
  match items with
  | [] => simp [writeItems, readItems]
  | item :: items =>
    have long : item.write.length + (writeItems items).length ≤ fuel := by
      simpa [writeItems] using enough
    have first := read_write item fuel (writeItems items ++ rest) (by omega) (undigited_items items rest)
    have more := readItems_write items fuel rest (by omega)
    simp only [writeItems, cons_append, append_assoc, readItems]
    rw [first, bind_some, more, map_some]

theorem readFields_write (fields : List (String × Json)) (fuel : Nat) (rest : List Char)
    (enough : (writeFields fields).length ≤ fuel) :
    readFields fuel (writeFields fields ++ rest) = some (fields, rest) := by
  cases fuel with
  | zero => cases fields <;> simp [writeFields] at enough
  | succ fuel =>
  match fields with
  | [] => simp [writeFields, readFields]
  | (name, field) :: fields =>
    cases fuel with
    | zero => simp [writeFields] at enough
    | succ fuel =>
    have long : field.write.length + (writeFields fields).length ≤ fuel := by
      simp only [writeFields, length_cons, length_append] at enough
      omega
    have first := read_write field fuel (writeFields fields ++ rest) (by omega) (undigited_fields fields rest)
    have more := readFields_write fields (fuel + 1) rest (by omega)
    simp only [writeFields, cons_append, append_assoc]
    rw [readFields_next, readField_write, first, map_some, bind_some, more, map_some]

end

theorem parse_render (value : Json) : parse value.render = .ok value := by
  have whole := read_write value value.write.length [] (le_refl _) (fun _ => nofun)
  rw [append_nil] at whole
  simp [parse, render, whole]

end Json

/-- The binding of a name in an object, `null` if there is none. -/
def Json.field (name : String) : Json → Json
  | .obj fields => ((fields.find? (fun field => field.1 = name)).map (·.2)).getD .null
  | _ => .null

def toMap {K V : Type} [DecidableEq K] (bindings : List (K × V)) : HashMap K V :=
  bindings.foldl (fun map binding => map.insert binding.1 binding.2) ∅

def bindings {K V : Type} (map : HashMap K V) : List (K × V) := map.entries.map (fun entry => (entry.1, entry.2))

def Json.text : Json → Option String
  | .str value => some value
  | _ => none

def Json.number : Json → Option Int
  | .num value => some value
  | _ => none

def Json.named {α : Type} (all : List α) (label : α → String) (value : Json) : Option α :=
  value.text.bind (fun name => all.find? (fun a => label a = name))

def textOrNull (value : Option String) : Json := (value.map .str).getD .null

def SummaryDepth.debug : SummaryDepth → String
  | .sentence => "Sentence"
  | .paragraph => "Paragraph"
  | .detailed => "Detailed"

def SummaryDepth.all : List SummaryDepth := [.sentence, .paragraph, .detailed]

def LayerSummary.toJson (summary : LayerSummary) : Json :=
  .obj [("depth", .str summary.depth.debug), ("content", .str summary.content),
    ("tokenCount", .num summary.tokenCount),
    ("generatedAt", .num summary.generatedAt), ("sourceHash", .str summary.sourceHash),
    ("contentHash", textOrNull summary.contentHash), ("personalized", .bool summary.personalized),
    ("personalizationContext", textOrNull summary.personalizationContext)]

def LayerSummary.ofJson (value : Json) : Option LayerSummary := do
  let depth ← (value.field "depth").named SummaryDepth.all debug
  let content ← (value.field "content").text
  let tokenCount ← (value.field "tokenCount").number
  let generatedAt ← (value.field "generatedAt").number
  let sourceHash ← (value.field "sourceHash").text
  let personalized ← match value.field "personalized" with
    | .bool value => some value
    | _ => none
  some {
    depth, content, tokenCount := tokenCount.toNat, generatedAt, sourceHash
    contentHash := (value.field "contentHash").text
    personalized
    personalizationContext := (value.field "personalizationContext").text }

/-- The object that `store_inner` writes. -/
def Sidecar.toJson (sidecar : Sidecar) : Json :=
  .obj [("author", textOrNull sidecar.author), ("kind", .str sidecar.kind.debug),
    ("metadata", .obj (bindings sidecar.metadata)), ("status", .str sidecar.status.debug),
    ("summaries", .obj ((bindings sidecar.summaries).map (fun binding => (binding.1.debug, binding.2.toJson)))),
    ("updated_at", .num sidecar.updatedAt)]

/-- The fields that `get_inner` takes from the object. -/
def SidecarFields.ofJson (value : Json) : SidecarFields where
  kind := (value.field "kind").named [.adr, .policy, .pattern, .spec, .hindsight] KnowledgeType.debug
  status := (value.field "status").named [.draft, .proposed, .accepted, .deprecated, .superseded, .rejected]
    KnowledgeStatus.debug
  summaries := match value.field "summaries" with
    | .obj fields => (fields.mapM (fun field : String × Json => do
        let depth ← (Json.str field.1).named SummaryDepth.all debug
        let summary ← LayerSummary.ofJson field.2
        some (depth, summary))).map toMap
    | _ => none
  metadata := match value.field "metadata" with
    | .obj fields => some (toMap fields)
    | _ => none
  author := (value.field "author").text
  updatedAt := (value.field "updated_at").number

def renderSidecar (sidecar : Sidecar) : String := sidecar.toJson.render

def parseSidecar (text : String) : Except String SidecarFields := (Json.parse text).map SidecarFields.ofJson

structure SidecarFields.Tell (fields : SidecarFields) (sidecar : Sidecar) : Prop where
  kind : fields.kind = some sidecar.kind
  status : fields.status = some sidecar.status
  summaries : ∃ map, fields.summaries = some map ∧ ∀ depth, map.lookup depth = sidecar.summaries.lookup depth
  metadata : ∃ map, fields.metadata = some map ∧ ∀ name, map.lookup name = sidecar.metadata.lookup name
  author : fields.author = sidecar.author
  updatedAt : fields.updatedAt = some sidecar.updatedAt

theorem text_textOrNull (value : Option String) : (textOrNull value).text = value := by
  cases value <;> rfl

theorem SummaryDepth.named_debug (depth : SummaryDepth) :
    (Json.str depth.debug).named SummaryDepth.all debug = some depth := by
  cases depth <;> decide

theorem LayerSummary.ofJson_toJson (summary : LayerSummary) : ofJson summary.toJson = some summary := by
  have text : ∀ value, (Json.str value).text = some value := fun _ => rfl
  simp [ofJson, toJson, Json.field, text, Json.number, named_debug, text_textOrNull]

section
variable {K V : Type} [DecidableEq K]

theorem lookup_foldl_insert {entries : List (Sigma fun _ : K => V)} (distinct : entries.NodupKeys) (map : HashMap K V)
    (k : K) : ((entries.map (fun entry => (entry.1, entry.2))).foldl
      (fun map binding => map.insert binding.1 binding.2) map).lookup k = (entries.dlookup k).or (map.lookup k) := by
  induction entries generalizing map with
  | nil => rfl
  | cons entry entries ih =>
    obtain ⟨first, rest⟩ := nodupKeys_cons.mp distinct
    rw [map_cons, foldl_cons, ih rest]
    by_cases here : k = entry.1
    · subst here
      rw [dlookup_eq_none.mpr first, AList.lookup_insert, dlookup_cons_eq]
      rfl
    · rw [AList.lookup_insert_ne here, dlookup_cons_ne _ _ here]

theorem lookup_toMap (map : HashMap K V) (k : K) : (toMap (bindings map)).lookup k = map.lookup k := by
  refine (lookup_foldl_insert map.nodupKeys ∅ k).trans ?_
  rw [AList.lookup_empty, or_none]
  rfl

end

theorem mapM_summaries (summaries : List (SummaryDepth × LayerSummary)) :
    ((summaries.map (fun binding => (binding.1.debug, binding.2.toJson))).mapM (fun field : String × Json => do
      let depth ← (Json.str field.1).named SummaryDepth.all debug
      let summary ← LayerSummary.ofJson field.2
      some (depth, summary))) = some summaries := by
  induction summaries with
  | nil => rfl
  | cons binding rest ih =>
    rw [map_cons, mapM_cons, ih]
    simp [named_debug, LayerSummary.ofJson_toJson]

theorem parseSidecar_renderSidecar (sidecar : Sidecar) :
    ∃ fields, parseSidecar (renderSidecar sidecar) = .ok fields ∧ fields.Tell sidecar := by
  refine ⟨SidecarFields.ofJson sidecar.toJson, ?_, ?_, ?_, ?_, ?_, ?_, ?_⟩
  · rw [parseSidecar, renderSidecar, Json.parse_render]
    rfl
  · show (Json.str sidecar.kind.debug).named _ _ = _
    cases sidecar.kind <;> decide
  · show (Json.str sidecar.status.debug).named _ _ = _
    cases sidecar.status <;> decide
  · refine ⟨toMap (bindings sidecar.summaries), ?_, lookup_toMap _⟩
    exact congrArg (Option.map toMap) (mapM_summaries _)
  · exact ⟨_, rfl, lookup_toMap _⟩
  · exact text_textOrNull sidecar.author
  · rfl

end Aeterna
