import Mathlib.Data.String.Basic

/-!
Texts of flat JSON records, written without blanks and in a fixed order of the fields.
-/

namespace Aeterna.Lib

structure Wire (α : Type) where
  write : α → List Char
  read : List Char → Option (α × List Char)
  read_write : ∀ a rest, read (write a ++ rest) = some (a, rest)

namespace Wire
variable {α β : Type}

def expect : List Char → List Char → Option (List Char)
  | [], rest => some rest
  | _ :: _, [] => none
  | c :: literal, d :: rest => if c = d then expect literal rest else none

theorem expect_append (literal rest : List Char) : expect literal (literal ++ rest) = some rest := by
  induction literal with
  | nil => rfl
  | cons c literal ih => simpa [expect] using ih

def after (literal : String) (wire : Wire α) : Wire α where
  write a := literal.toList ++ wire.write a
  read text := (expect literal.toList text).bind wire.read
  read_write a rest := by rw [List.append_assoc, expect_append]; exact wire.read_write a rest

variable (wire : Wire α)

def before (literal : String) : Wire α where
  write a := wire.write a ++ literal.toList
  read text := (wire.read text).bind (fun got => (expect literal.toList got.2).map (fun rest => (got.1, rest)))
  read_write a rest := by simp [List.append_assoc, wire.read_write, expect_append]

def both (first : Wire α) (second : Wire β) : Wire (α × β) where
  write pair := first.write pair.1 ++ second.write pair.2
  read text := (first.read text).bind (fun got => (second.read got.2).map (fun more => ((got.1, more.1), more.2)))
  read_write pair rest := by simp [List.append_assoc, first.read_write, second.read_write]

def via (build : α → β) (parts : β → α) (inverse : ∀ b, build (parts b) = b) : Wire β where
  write b := wire.write (parts b)
  read text := (wire.read text).map (fun got => (build got.1, got.2))
  read_write b rest := by simp [wire.read_write, inverse]

def render (a : α) : String := String.ofList (wire.write a)

def parse (text : String) : Except String α :=
  match wire.read text.toList with
  | some (a, []) => .ok a
  | _ => .error "Serialization error: unexpected text"

theorem parse_render (a : α) : wire.parse (wire.render a) = .ok a := by
  have whole := wire.read_write a []
  rw [List.append_nil] at whole
  simp [parse, render, whole]

end Wire

def hexDigit (n : Nat) : Char := if n < 10 then Char.ofNat (48 + n) else Char.ofNat (87 + n)

variable (c : Char)

def hexValue : Nat := if c.toNat < 58 then c.toNat - 48 else c.toNat - 87

def escapeChar : List Char :=
  if c = '"' then ['\\', '"']
  else if c = '\\' then ['\\', '\\']
  else if c = '\n' then ['\\', 'n']
  else if c = '\r' then ['\\', 'r']
  else if c = '\t' then ['\\', 't']
  else if c = Char.ofNat 8 then ['\\', 'b']
  else if c = Char.ofNat 12 then ['\\', 'f']
  else if c.toNat < 32 then ['\\', 'u', '0', '0', hexDigit (c.toNat / 16), hexDigit (c.toNat % 16)]
  else [c]

def unescape : List Char → Option (List Char × List Char)
  | [] => none
  | '"' :: rest => some ([], rest)
  | '\\' :: 'u' :: '0' :: '0' :: high :: low :: rest =>
    (unescape rest).map (fun got => (Char.ofNat (16 * hexValue high + hexValue low) :: got.1, got.2))
  | '\\' :: 'n' :: rest => (unescape rest).map (fun got => ('\n' :: got.1, got.2))
  | '\\' :: 'r' :: rest => (unescape rest).map (fun got => ('\r' :: got.1, got.2))
  | '\\' :: 't' :: rest => (unescape rest).map (fun got => ('\t' :: got.1, got.2))
  | '\\' :: 'b' :: rest => (unescape rest).map (fun got => (Char.ofNat 8 :: got.1, got.2))
  | '\\' :: 'f' :: rest => (unescape rest).map (fun got => (Char.ofNat 12 :: got.1, got.2))
  | '\\' :: c :: rest => (unescape rest).map (fun got => (c :: got.1, got.2))
  | c :: rest => (unescape rest).map (fun got => (c :: got.1, got.2))

theorem hexValue_hexDigit : ∀ n < 16, hexValue (hexDigit n) = n := by decide

theorem unescape_escapeChar (rest : List Char) :
    unescape (escapeChar c ++ rest) = (unescape rest).map (fun got => (c :: got.1, got.2)) := by
  unfold escapeChar
  split
  · rename_i quote
    simp [unescape, quote]
  split
  · rename_i slash
    simp [unescape, slash]
  split
  · rename_i line
    simp [unescape, line]
  split
  · rename_i back
    simp [unescape, back]
  split
  · rename_i tab
    simp [unescape, tab]
  split
  · rename_i bell
    simp [unescape, bell]
  split
  · rename_i feed
    simp [unescape, feed]
  split
  · rename_i control
    have value : 16 * hexValue (hexDigit (c.toNat / 16)) + hexValue (hexDigit (c.toNat % 16)) = c.toNat := by
      rw [hexValue_hexDigit _ (by omega), hexValue_hexDigit _ (by omega)]
      omega
    simp [unescape, value]
  · rename_i _ slash _ _ _ _ _ _
    simp [unescape, slash]

theorem unescape_escape (chars rest : List Char) :
    unescape (chars.flatMap escapeChar ++ '"' :: rest) = some (chars, rest) := by
  induction chars with
  | nil => simp [unescape]
  | cons c chars ih => simp [List.flatMap_cons, List.append_assoc, unescape_escapeChar, ih]

namespace Wire
variable {α : Type}

def string : Wire String where
  write s := '"' :: (s.toList.flatMap escapeChar ++ ['"'])
  read
    | '"' :: rest => (unescape rest).map (fun got => (String.ofList got.1, got.2))
    | _ => none
  read_write s rest := by simp [List.append_assoc, unescape_escape]

def intThen (stop : Char) (ends : stop.isDigit = false) : Wire Int where
  write
    | .ofNat n => Nat.toDigits 10 n ++ [stop]
    | .negSucc n => '-' :: (Nat.toDigits 10 (n + 1) ++ [stop])
  read text :=
    match text with
    | '-' :: digits =>
      some (-(Nat.ofDigitChars 10 (digits.takeWhile Char.isDigit) 0), (digits.dropWhile Char.isDigit).drop 1)
    | digits => some (Nat.ofDigitChars 10 (digits.takeWhile Char.isDigit) 0, (digits.dropWhile Char.isDigit).drop 1)
  read_write a rest := by
    have digit : ∀ n, ∀ c ∈ Nat.toDigits 10 n, c.isDigit = true :=
      fun n c member => Nat.isDigit_of_mem_toDigits (by decide) (by decide) member
    have taken : ∀ n, ((Nat.toDigits 10 n ++ [stop] ++ rest).takeWhile Char.isDigit) = Nat.toDigits 10 n := by
      intro n
      rw [List.append_assoc, List.takeWhile_append_of_pos (digit n)]
      simp [ends]
    have dropped : ∀ n, ((Nat.toDigits 10 n ++ [stop] ++ rest).dropWhile Char.isDigit).drop 1 = rest := by
      intro n
      rw [List.append_assoc, List.dropWhile_append_of_pos (digit n)]
      simp [ends]
    cases a with
    | negSucc n =>
      have value := Nat.ofDigitChars_toDigits (b := 10) (n := n + 1) (by decide) (by decide)
      simp only [List.cons_append, taken, dropped, value]
      rfl
    | ofNat n =>
      have value := Nat.ofDigitChars_toDigits (b := 10) (n := n) (by decide) (by decide)
      have unsigned : ∀ tail, Nat.toDigits 10 n ++ [stop] ++ rest ≠ '-' :: tail := by
        intro tail same
        obtain ⟨first, others, shape⟩ := List.exists_cons_of_ne_nil (Nat.toDigits_ne_nil (n := n) (b := 10))
        have sign := digit n first (by rw [shape]; exact List.mem_cons_self)
        rw [shape] at same
        simp only [List.cons_append, List.cons.injEq] at same
        rw [same.1] at sign
        exact absurd sign (by decide)
      split
      · rename_i digits shape
        exact absurd shape (unsigned digits)
      · rw [taken, dropped, value]
        rfl

/-- One of the values of an enumeration, by its name. -/
def name (all : List α) (complete : ∀ a, a ∈ all) (label : α → String)
    (distinct : Function.Injective label) : Wire α where
  write a := string.write (label a)
  read text := (string.read text).bind (fun got =>
    (all.find? (fun a => label a = got.1)).map (fun a => (a, got.2)))
  read_write a rest := by
    rw [string.read_write]
    cases found : all.find? (fun b => label b = label a) with
    | none =>
      have absent := List.find?_eq_none.mp found a (complete a)
      simp at absent
    | some b =>
      have same : label b = label a := by simpa using List.find?_some found
      simp [found, distinct same]

/-- A value or `null`, for values whose text never starts like it. -/
def orNull (wire : Wire α) (apart : ∀ rest, wire.read ('n' :: rest) = none) : Wire (Option α) where
  write
    | some a => wire.write a
    | none => "null".toList
  read text :=
    match wire.read text with
    | some (a, rest) => some (some a, rest)
    | none => (expect "null".toList text).map (fun rest => (none, rest))
  read_write value rest := by
    cases value with
    | some a => simp [wire.read_write]
    | none =>
      have other : wire.read ("null".toList ++ rest) = none := apart _
      simp only [other, expect_append, Option.map_some]

end Wire

end Aeterna.Lib
