import Aeterna.Core.Types

namespace Aeterna

structure Piece where
  accepts : Char → Bool
  least : Nat
  most : Option Nat

/-- Tries the repetition counts from `count` down to `least`; the first that lets `next` match wins. -/
def backOff (next : List Char → Option (List Char)) (least : Nat) (text : List Char) : Nat → Option (List Char)
  | 0 => if least = 0 then next text else none
  | count + 1 =>
    if count + 1 < least then none
    else (next (text.drop (count + 1))).orElse (fun _ => backOff next least text count)

def matchPrefix : List Piece → List Char → Option (List Char)
  | [], text => some text
  | piece :: rest, text =>
    let run := (text.takeWhile piece.accepts).length
    backOff (matchPrefix rest) piece.least text (min run (piece.most.getD run))

/-- `Regex::replace_all` for an expression that never matches the empty text. -/
def replaceLoop (pieces : List Piece) (replacement : List Char) : Nat → List Char → List Char
  | 0, text => text
  | _ + 1, [] => []
  | fuel + 1, c :: text =>
    match matchPrefix pieces (c :: text) with
    | some rest => replacement ++ replaceLoop pieces replacement fuel rest
    | none => c :: replaceLoop pieces replacement fuel text

def replaceAll (pieces : List Piece) (replacement : List Char) (text : List Char) : List Char :=
  replaceLoop pieces replacement text.length text

variable (c : Char)

def single : Piece := ⟨fun d => d = c, 1, some 1⟩

def isAlpha : Bool := ('a' ≤ c ∧ c ≤ 'z') ∨ ('A' ≤ c ∧ c ≤ 'Z')

def isAlphanumeric : Bool := isAlpha c ∨ ('0' ≤ c ∧ c ≤ '9')

/-- `[a-zA-Z0-9._%+-]+@[a-zA-Z0-9.-]+\.[a-zA-Z]{2,}` -/
def emailPieces : List Piece :=
  [⟨fun c => isAlphanumeric c || c ∈ ['.', '_', '%', '+', '-'], 1, none⟩,
    single '@',
    ⟨fun c => isAlphanumeric c || c ∈ ['.', '-'], 1, none⟩,
    single '.',
    ⟨isAlpha, 2, none⟩]

/-- `\d{3}-\d{3}-\d{4}`, where `\d` is the Unicode decimal digit class of the `regex` crate. -/
def phonePieces (decimalDigit : Char → Bool) : List Piece :=
  [⟨decimalDigit, 3, some 3⟩, single '-', ⟨decimalDigit, 3, some 3⟩, single '-',
    ⟨decimalDigit, 4, some 4⟩]

def redactPii (decimalDigit : Char → Bool) (content : String) : String :=
  let result := replaceAll emailPieces "[REDACTED_EMAIL]".toList content.toList
  String.ofList (replaceAll (phonePieces decimalDigit) "[REDACTED_PHONE]".toList result)

/-- `compute_content_hash`: SHA-256 in hexadecimal, taken to have no collisions. -/
structure ContentHash where
  digest : String → String
  injective : Function.Injective digest

def knownDigests : List (String × String) :=
  [("plain", "a116c9ed46d6207734a43317d30fd88f52ac8634c37d904bbf4e41d865f90475"),
    ("revised", "1e4de31f94535968f4e4ca8fd577a4598e984bc5c89dae095924e944c121c7a3"),
    ("a@b.co", "80305c9bb1bb2480e03894350e0a8a366dcbdeb302e69e0817aa0743abd77054"),
    ("[REDACTED_EMAIL]", "2a40c9e2e9071d9a9a0b3a2319d906e062992df32bbdeaa5a7c3c82003831138")]

def sampleDigest (content : String) : String :=
  (knownDigests.find? (fun known => known.1 = content)).elim ("#" ++ content) (·.2)

/-- SHA-256 on the known contents and some collision-free continuation elsewhere. -/
def ContentHash.sample : ContentHash where
  digest := sampleDigest
  injective := by
    have unmarked : ∀ known ∈ knownDigests, known.2.toList.head? ≠ some '#' := by decide
    have separate : ∀ known ∈ knownDigests, ∀ other ∈ knownDigests, known.2 = other.2 → known.1 = other.1 := by
      decide
    have marked : ∀ content : String, ("#" ++ content).toList.head? = some '#' := by simp
    intro a b same
    unfold sampleDigest at same
    cases foundA : knownDigests.find? (fun known => known.1 = a) with
    | none =>
      cases foundB : knownDigests.find? (fun known => known.1 = b) with
      | none =>
        simp only [foundA, foundB, Option.elim_none] at same
        exact (String.append_right_inj "#").mp same
      | some known =>
        simp only [foundA, foundB, Option.elim_none, Option.elim_some] at same
        exact absurd (same ▸ marked a) (unmarked known (List.mem_of_find?_eq_some foundB))
    | some known =>
      have keyA : known.1 = a := by simpa using List.find?_some foundA
      cases foundB : knownDigests.find? (fun known => known.1 = b) with
      | none =>
        simp only [foundA, foundB, Option.elim_none, Option.elim_some] at same
        exact absurd (same ▸ marked b) (unmarked known (List.mem_of_find?_eq_some foundA))
      | some other =>
        have keyB : other.1 = b := by simpa using List.find?_some foundB
        simp only [foundA, foundB, Option.elim_some] at same
        rw [← keyA, ← keyB]
        exact separate known (List.mem_of_find?_eq_some foundA) other
          (List.mem_of_find?_eq_some foundB) same

/-- `content.lines().next().unwrap_or("")`. -/
def firstLine (content : String) : String :=
  let text := content.toList
  let line := text.takeWhile (fun c => c ≠ '\n')
  if line.length < text.length ∧ line.getLast? = some '\r' then String.ofList line.dropLast
  else String.ofList line

end Aeterna
