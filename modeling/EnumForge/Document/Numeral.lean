import EnumForge.Document.Scan
import EnumForge.Number.Shortest

/-!
Numbers in a document. A number without fraction and exponent is an integer if it fits 64 bits, with
a sign or without; every other number is a binary64 number. Of its digits only those count that fit
64 bits, and each power of ten that scales them rounds.
-/

namespace EnumForge.Document

open Text (Bytes)
open EnumForge.Number (Binary64)

inductive Numeral
  | integer (i : Int)
  | real (negative : Bool) (x : Binary64)
  deriving DecidableEq

def Numeral.found : Numeral → Found
  | integer i => .integer i
  | real negative x => .real (Number.text negative x)

namespace Numeral

def isDigit (b : UInt8) : Bool := ascii '0' ≤ b && b ≤ ascii '9'

def digit (b : UInt8) : Nat := b.toNat - 48

/-- The greatest significand. -/
def greatest : Nat := (1 <<< 64) - 1

/-- The greatest exponent that is told apart. -/
def greatestExponent : Nat := (1 <<< 31) - 1

/-- The number `significand * 10 ^ exponent`. -/
def scaled (negative : Bool) (significand : Nat) (exponent : Int) : Reader Numeral := fun s =>
  match (Binary64.ofRatio significand 1).bind (·.scaleByTen exponent) with
  | some x => .ok (real negative x, s)
  | none => .error (.behind .numberOutOfRange s)

def skipDigits (s : Bytes) : Bytes := s.dropWhile isDigit

/-- The digits of an exponent after the first. -/
def readExponentDigits (negative : Bool) (significand : Nat) (start : Int) (up : Bool) (e : Nat) :
    Reader Numeral
  | [] => scaled negative significand (if up then start + e else start - e) []
  | b :: s =>
    if isDigit b then
      let e := e * 10 + digit b
      if greatestExponent < e then
        if up && significand != 0 then .error (.behind .numberOutOfRange s)
        else .ok (real negative .zero, skipDigits s)
      else readExponentDigits negative significand start up e s
    else scaled negative significand (if up then start + e else start - e) (b :: s)

/-- An exponent whose letter has been read; `start` is the exponent that the digits have already. -/
def readExponent (negative : Bool) (significand : Nat) (start : Int) : Reader Numeral := fun s =>
  let (up, s) :=
    match s with
    | b :: r => if b = ascii '+' then (true, r) else if b = ascii '-' then (false, r) else (true, s)
    | [] => (true, s)
  match s with
  | [] => .error (.behind .endInValue [])
  | b :: s =>
    if isDigit b then readExponentDigits negative significand start up (digit b) s
    else .error (.behind .invalidNumber s)

/-- What may come after the digits of a number that is not an integer. -/
def readScale (negative : Bool) (significand : Nat) (exponent : Int) : Reader Numeral
  | [] => scaled negative significand exponent []
  | b :: s =>
    if b = ascii 'e' || b = ascii 'E' then readExponent negative significand exponent s
    else scaled negative significand exponent (b :: s)

/-- The digits after a point, at least one. Those that do not fit are passed over. -/
def readFraction (negative : Bool) (significand : Nat) (exponent : Int) (any : Bool) :
    Reader Numeral
  | [] =>
    if any then scaled negative significand exponent []
    else .error (.before .endInValue [])
  | b :: s =>
    if isDigit b then
      if greatest < significand * 10 + digit b then
        readScale negative significand exponent (skipDigits s)
      else readFraction negative (significand * 10 + digit b) (exponent - 1) true s
    else if any then readScale negative significand exponent (b :: s)
    else .error (.before .invalidNumber (b :: s))

/-- Digits before the point that do not fit any more, of which only the number counts. -/
def readLong (negative : Bool) (significand : Nat) (exponent : Int) : Reader Numeral
  | [] => scaled negative significand exponent []
  | b :: s =>
    if isDigit b then readLong negative significand (exponent + 1) s
    else if b = ascii '.' then readFraction negative significand exponent false s
    else readScale negative significand exponent (b :: s)

/-- A number of digits alone. Zero with a sign and what is below 64 bits are not integers. -/
def whole (negative : Bool) (n : Nat) : Reader Numeral := fun s =>
  if !negative then .ok (integer n, s)
  else if n = 0 || 1 <<< 63 < n then scaled true n 0 s
  else .ok (integer (-n), s)

/-- What may come after the digits before the point. -/
def readAfterWhole (negative : Bool) (n : Nat) : Reader Numeral
  | [] => whole negative n []
  | b :: s =>
    if b = ascii '.' then readFraction negative n 0 false s
    else if b = ascii 'e' || b = ascii 'E' then readExponent negative n 0 s
    else whole negative n (b :: s)

/-- The digits before the point after the first. -/
def readWhole (negative : Bool) (n : Nat) : Reader Numeral
  | [] => whole negative n []
  | b :: s =>
    if isDigit b then
      if greatest < n * 10 + digit b then readLong negative n 1 s
      else readWhole negative (n * 10 + digit b) s
    else readAfterWhole negative n (b :: s)

/-- A number without its sign. No digit may follow a zero at the front. -/
def readMagnitude (negative : Bool) : Reader Numeral
  | [] => .error (.behind .endInValue [])
  | b :: s =>
    if b = ascii '0' then
      if s.head?.any isDigit then .error (.before .invalidNumber s)
      else readAfterWhole negative 0 s
    else if isDigit b then readWhole negative (digit b) s
    else .error (.behind .invalidNumber s)

end Numeral

/-- A number, with its sign if it has one. -/
def readNumeral : Reader Numeral
  | [] => .error (.behind .endInValue [])
  | b :: s =>
    if b = ascii '-' then Numeral.readMagnitude true s
    else Numeral.readMagnitude false (b :: s)

end EnumForge.Document
