import FreeNames.Text
import FreeNames.Text.Character

/-!
# The symbols of a regular expression pattern

Before a pattern is looked at, the escapes in it that spell a code point by its number are resolved.
Code points beyond the first 65536 are all alike to a pattern and become the last one of these, and
so do the two halves of a character side by side. What is left is read as symbols: a code point, or a
backslash together with the code point behind it.
-/

namespace FreeNames.Grammar.RegExp

/-- A piece of a pattern: a character that stands there, or the code of an escape. -/
inductive Piece where
  | plain (c : Char)
  | spelled (code : Nat)
  deriving DecidableEq, Repr

/-- The number that an escape spells behind its backslash and its letter, and what follows it. -/
def spelledCode? : List Char → Option (Nat × List Char)
  | '{' :: inner =>
    let digits := inner.takeWhile Text.isHexDigit
    match inner.dropWhile Text.isHexDigit with
    | '}' :: rest => if digits.isEmpty then none else some (Text.digitsValue 16 digits, rest)
    | _ => none
  | rest =>
    let digits := (rest.take 4).takeWhile Text.isHexDigit
    if digits.length = 4 then some (Text.digitsValue 16 digits, rest.drop 4) else none

/-- The pieces of a pattern, at most a number of them. -/
def piecesUpTo : Nat → List Char → List Piece
  | 0, _ => []
  | _ + 1, [] => []
  | n + 1, '\\' :: 'u' :: rest =>
    match spelledCode? rest with
    | some (code, rest) => .spelled code :: piecesUpTo n rest
    | none => .plain '\\' :: piecesUpTo n ('u' :: rest)
  | n + 1, c :: rest => .plain c :: piecesUpTo n rest

/-- The pieces of a pattern. -/
def pieces (pattern : String) : List Piece := piecesUpTo pattern.length pattern.toList

/-- The codes in a pattern that are no code points. -/
def badEscapes (pattern : String) : List Nat :=
  (pieces pattern).filterMap fun
    | .spelled code => if code > 0x10ffff then some code else none
    | .plain _ => none

/-- The code point that all code points beyond it are taken for. -/
def lastPoint : CodePoint := .ofNat 0xffff

/-- The code point of a piece. -/
def Piece.point : Piece → CodePoint
  | plain c => .ofChar c
  | spelled code => if code ≤ 0xffff then .ofNat code else lastPoint

/-- Code points with the two halves of each character made one. -/
def joinHalves : List CodePoint → List CodePoint
  | [] => []
  | [p] => [p]
  | p :: q :: rest =>
    if p.isHighHalf && q.isLowHalf then lastPoint :: joinHalves rest
    else p :: joinHalves (q :: rest)

/-- The code points of a pattern with its escapes resolved. -/
def resolved (pattern : String) : List CodePoint := joinHalves ((pieces pattern).map Piece.point)

/-- A code point of a pattern, or a backslash together with one. -/
inductive Symbol where
  | plain (p : CodePoint)
  | escaped (p : CodePoint)
  deriving DecidableEq, Repr

namespace Symbol

/-- Whether a symbol is a given character. -/
def is (s : Symbol) (c : Char) : Bool := s = plain (.ofChar c)

/-- The character that a symbol is, if it is one. -/
def char? : Symbol → Option Char
  | plain p => p.char?
  | escaped _ => none

/-- Whether a symbol is a character of which a test holds. -/
def satisfies (s : Symbol) (test : Char → Bool) : Bool := s.char?.any test

/-- The symbols of code points. A backslash at the end has nothing behind it. -/
def ofPoints : List CodePoint → Option (List Symbol)
  | [] => some []
  | p :: rest =>
    if p = .ofChar '\\' then
      match rest with
      | [] => none
      | q :: rest => (ofPoints rest).map (escaped q :: ·)
    else (ofPoints rest).map (plain p :: ·)

end Symbol

end FreeNames.Grammar.RegExp
