import Conformance.Text.Printable

namespace Conformance.Text

def singleMark : Char := '\x27'

/-- The mark around a quoted text: single, unless the text holds single marks and no double ones. -/
def markFor (cs : List Char) : Char :=
  if cs.contains singleMark && !cs.contains '"' then '"' else singleMark

def hexDigits (width n : Nat) : List Char :=
  let digits := Nat.toDigits 16 n
  List.replicate (width - digits.length) '0' ++ digits

def blankEscape (c : Char) : Option Char :=
  if c == '\t' then some 't'
  else if c == '\n' then some 'n'
  else if c == '\r' then some 'r'
  else none

def escapeChar (mark c : Char) : List Char :=
  if c == mark || c == '\\' then ['\\', c]
  else match blankEscape c with
    | some letter => ['\\', letter]
    | none =>
      if isPrintable c then [c]
      else if c.toNat < 0x100 then '\\' :: 'x' :: hexDigits 2 c.toNat
      else if c.toNat < 0x10000 then '\\' :: 'u' :: hexDigits 4 c.toNat
      else '\\' :: 'U' :: hexDigits 8 c.toNat

def quote (s : String) : String :=
  let cs := s.toList
  let mark := markFor cs
  String.ofList (mark :: cs.flatMap (escapeChar mark) ++ [mark])

def escapeByte (mark : Char) (b : UInt8) : List Char :=
  let c := Char.ofNat b.toNat
  if b.toNat < 0x7f then escapeChar mark c else '\\' :: 'x' :: hexDigits 2 b.toNat

/-- Bytes in their marks, where `escaped` is the mark that is written with a backslash. -/
def quoteBytesWith (escaped : Char → Char) (bs : List UInt8) : String :=
  let mark := markFor (bs.map fun b ↦ Char.ofNat b.toNat)
  String.ofList ('b' :: mark :: bs.flatMap (escapeByte (escaped mark)) ++ [mark])

def quoteBytes (bs : List UInt8) : String := quoteBytesWith id bs

def quoteByteArray (bs : List UInt8) : String :=
  s!"bytearray({quoteBytesWith (fun _ ↦ singleMark) bs})"

end Conformance.Text
