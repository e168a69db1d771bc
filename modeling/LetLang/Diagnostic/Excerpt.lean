import LetLang.Text.Lines
import LetLang.Text.Style

namespace LetLang

def sourceLine (source : List Char) (number : Int) : Option (List Char) :=
  if 0 < number then
    (Lines.split source)[(number - 1).toNat]?.map (Lines.trimEnd (· == '\r'))
  else none

structure Span where
  start : Int
  stop : Int
  deriving DecidableEq, Repr

namespace Span

def offset (line : List Char) (place : Int) : Nat :=
  if place < 0 then (line.length + place).toNat else place.toNat

def within (line : List Char) (col : Int) (length : Nat) : Span :=
  let start := col - 1
  ⟨start, min (start + length) (max line.length (start + 1))⟩

def before (s : Span) (line : List Char) : List Char := line.take (offset line s.start)

def part (s : Span) (line : List Char) : List Char :=
  (line.take (offset line s.stop)).drop (offset line s.start)

def behind (s : Span) (line : List Char) : List Char := line.drop (offset line s.stop)

def mark (s : Span) : List Char := '^' :: List.replicate (s.stop - s.start - 1).toNat '~'

end Span

namespace Excerpt

def margin : String := "  "

def lineRow (p : Painter) (line : List Char) (s : Span) : String :=
  margin ++ String.ofList (s.before line) ++ p.paint .alarm (String.ofList (s.part line)) ++
    String.ofList (s.behind line)

def markRow (p : Painter) (s : Span) : String :=
  margin ++ String.ofList (List.replicate s.start.toNat ' ') ++
    p.paint .alarm (String.ofList s.mark)

def text (p : Painter) (line : List Char) (col : Int) (length : Nat) : String :=
  let s := Span.within line col length
  lineRow p line s ++ "\n" ++ markRow p s

end Excerpt

end LetLang
