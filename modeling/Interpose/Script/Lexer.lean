import Interpose.Script.Token
import Interpose.Text.Alphabetic
import Interpose.Text.Blank
import Interpose.Text.Numeric

set_option autoImplicit false

namespace Interpose.Script

structure Cursor where
  rest : List Char
  position : Position
deriving DecidableEq, Repr

def Cursor.ofText (source : String) : Cursor := ⟨source.toList, .start⟩

def isWordStart (c : Char) : Bool := Text.isAlphabetic c || c == '_'

def isWordPart (c : Char) : Bool := Text.isAlphabetic c || Text.isNumeric c || c == '_'

/-- Drops blanks and comments; a comment ends before a line feed, which is itself blank. -/
def skipTrivia (inComment : Bool) : List Char → Position → Cursor
  | [], p => ⟨[], p⟩
  | c :: rest, p =>
    if inComment then skipTrivia (c != '\n') rest (p.next c)
    else if Text.isBlank c then skipTrivia false rest (p.next c)
    else if c = '/' ∧ rest.head? = some '/' then skipTrivia true rest (p.next c)
    else ⟨c :: rest, p⟩

def unescape : Char → Option Char
  | 'n' => some '\n'
  | 't' => some '\t'
  | '"' => some '"'
  | '\\' => some '\\'
  | _ => none

def stringBody : List Char → Position → Except LexFault (List Char) × Cursor
  | [], p => (.error .unterminatedString, ⟨[], p⟩)
  | c :: rest, p =>
    if c = '"' then (.ok [], ⟨rest, p.next c⟩)
    else if c = '\n' then (.error .unterminatedString, ⟨rest, p.next c⟩)
    else if c = '\\' then
      match rest with
      | [] => (.error .unterminatedString, ⟨[], p.next c⟩)
      | e :: rest =>
        let after := (p.next c).next e
        match unescape e with
        | none => (.error (.unknownEscape e), ⟨rest, after⟩)
        | some value =>
          let (body, cursor) := stringBody rest after
          (body.map (value :: ·), cursor)
    else
      let (body, cursor) := stringBody rest (p.next c)
      (body.map (c :: ·), cursor)

def digitsBody (rest : List Char) (p : Position) : List Char × Cursor :=
  let digits := rest.takeWhile Text.isDigit
  (digits, ⟨rest.dropWhile Text.isDigit, p.advance digits⟩)

def integerKind (first : Char) (digits : List Char) : Except LexFault TokenKind :=
  let value : Int :=
    if first = '-' then -Text.natOfDigits digits else Text.natOfDigits (first :: digits)
  match Text.int64? value with
  | some n => .ok (.integer n)
  | none => .error (.integerOutOfRange (.ofList (first :: digits)))

def lexeme (c : Char) (rest : List Char) (p : Position) : Except LexFault TokenKind × Cursor :=
  let after := p.next c
  if c = '=' then (.ok .equal, ⟨rest, after⟩)
  else if c = '.' then (.ok .dot, ⟨rest, after⟩)
  else if c = ';' then (.ok .semicolon, ⟨rest, after⟩)
  else if c = '"' then
    let (body, cursor) := stringBody rest after
    (body.map fun value => .string (.ofList value), cursor)
  else if Text.isDigit c || (c == '-' && rest.head?.any Text.isDigit) then
    let (digits, cursor) := digitsBody rest after
    (integerKind c digits, cursor)
  else if isWordStart c then
    let word := rest.takeWhile isWordPart
    (.ok (.ofWord (.ofList (c :: word))), ⟨rest.dropWhile isWordPart, after.advance word⟩)
  else (.error (.unexpectedCharacter c), ⟨rest, after⟩)

/-- One step of reading: a token, an error, or nothing at the end; and the cursor behind it. -/
def Cursor.scan (cursor : Cursor) : Except LexError (Option Token) × Cursor :=
  let gap := skipTrivia false cursor.rest cursor.position
  match gap.rest with
  | [] => (.ok none, gap)
  | c :: rest =>
    let (read, after) := lexeme c rest gap.position
    match read with
    | .ok kind => (.ok (some ⟨kind, ⟨gap.position, after.position⟩⟩), after)
    | .error fault => (.error ⟨fault, gap.position⟩, after)

theorem skipTrivia_length_le (inComment : Bool) (rest : List Char) (p : Position) :
    (skipTrivia inComment rest p).rest.length ≤ rest.length := by
  induction rest generalizing inComment p with
  | nil => simp [skipTrivia]
  | cons c rest ih =>
    have step := fun b => Nat.le_succ_of_le (ih b (p.next c))
    unfold skipTrivia
    split
    · exact step _
    · split
      · exact step _
      · split
        · exact step _
        · exact Nat.le_refl _

theorem stringBody_length_le (rest : List Char) (p : Position) :
    (stringBody rest p).2.rest.length ≤ rest.length := by
  fun_induction stringBody rest p <;> simp only [List.length_cons, List.length_nil] <;> grind

theorem dropWhile_length_le (f : Char → Bool) (rest : List Char) :
    (rest.dropWhile f).length ≤ rest.length :=
  (List.dropWhile_suffix f).length_le

theorem lexeme_length_le (c : Char) (rest : List Char) (p : Position) :
    (lexeme c rest p).2.rest.length ≤ rest.length := by
  unfold lexeme
  simp only
  split
  · exact Nat.le_refl _
  split
  · exact Nat.le_refl _
  split
  · exact Nat.le_refl _
  split
  · exact stringBody_length_le _ _
  split
  · exact dropWhile_length_le _ _
  split
  · exact dropWhile_length_le _ _
  · exact Nat.le_refl _

theorem Cursor.scan_shorter (cursor : Cursor) :
    cursor.scan.1 = .ok none ∨ cursor.scan.2.rest.length < cursor.rest.length := by
  have gap := skipTrivia_length_le false cursor.rest cursor.position
  unfold scan
  simp only
  split
  · exact .inl rfl
  · rename_i c rest ahead
    have body := lexeme_length_le c rest (skipTrivia false cursor.rest cursor.position).position
    rw [ahead, List.length_cons] at gap
    right
    split <;> simp only <;> omega

def Cursor.tokenize (cursor : Cursor) : Except LexError (List Token) × Cursor :=
  match _step : cursor.scan with
  | (.ok none, after) => (.ok [⟨.endOfInput, ⟨after.position, after.position⟩⟩], after)
  | (.error error, after) => (.error error, after)
  | (.ok (some token), after) =>
    let (tokens, last) := after.tokenize
    (tokens.map (token :: ·), last)
termination_by cursor.rest.length
decreasing_by
  have shorter := cursor.scan_shorter
  simp only [_step, reduceCtorEq, Except.ok.injEq, false_or] at shorter
  exact shorter

def tokenize (source : String) : Except LexError (List Token) := (Cursor.ofText source).tokenize.1

end Interpose.Script
