import Folio.Text.Hex

/-!
# Percent encoding

Texts inside URLs write a byte as a percent sign and two hexadecimal digits. A
percent sign without them stands for itself. In form data a plus is a space.
-/

namespace Folio.Text

def utf8 (text : List Char) : List UInt8 :=
  (String.ofList text).toUTF8.toList

/-- The bytes that a percent encoded text stands for. -/
def percentDecode : List Char → List UInt8
  | '%' :: a :: b :: rest =>
    match hexValue? a, hexValue? b with
    | some high, some low => (16 * high + low).toUInt8 :: percentDecode rest
    | _, _ => utf8 ['%'] ++ percentDecode (a :: b :: rest)
  | c :: rest => utf8 [c] ++ percentDecode rest
  | [] => []
termination_by text => text.length

/-- What keeps bytes from being UTF-8: the index of the first bad byte, and how many
bytes are bad, unless the bytes end too soon. -/
structure BadBytes where
  index : Nat
  count : Option Nat
  deriving DecidableEq, Repr

def BadBytes.message (bad : BadBytes) : String :=
  match bad.count with
  | some count =>
    "invalid utf-8 sequence of " ++ toString count ++ " bytes from index " ++ toString bad.index
  | none => "incomplete utf-8 byte sequence from index " ++ toString bad.index

/-- The allowed range of the second byte and the number of bytes behind the first. -/
def sequenceShape? (first : UInt8) : Option (UInt8 × UInt8 × Nat) :=
  if 0xC2 ≤ first && first ≤ 0xDF then some (0x80, 0xBF, 1)
  else if first = 0xE0 then some (0xA0, 0xBF, 2)
  else if first = 0xED then some (0x80, 0x9F, 2)
  else if 0xE1 ≤ first && first ≤ 0xEF then some (0x80, 0xBF, 2)
  else if first = 0xF0 then some (0x90, 0xBF, 3)
  else if 0xF1 ≤ first && first ≤ 0xF3 then some (0x80, 0xBF, 3)
  else if first = 0xF4 then some (0x80, 0x8F, 3)
  else none

/-- How many of the bytes behind a first one belong to it, at most `count`. -/
def continuation (low high : UInt8) : Nat → List UInt8 → Nat
  | 0, _ => 0
  | _, [] => 0
  | count + 1, byte :: rest =>
    if low ≤ byte && byte ≤ high then continuation 0x80 0xBF count rest + 1 else 0

/-- The value of a first byte of a sequence with `more` bytes behind it. -/
def leadBits (first : UInt8) (more : Nat) : Nat :=
  match more with
  | 1 => first.toNat % 32
  | 2 => first.toNat % 16
  | _ => first.toNat % 8

/-- Reads bytes as UTF-8; `index` bytes stand in front of them. -/
def fromUtf8 (index : Nat) (bytes : List UInt8) : Except BadBytes (List Char) :=
  match bytes with
  | [] => .ok []
  | first :: rest =>
    if first < 0x80 then (fromUtf8 (index + 1) rest).map (Char.ofNat first.toNat :: ·)
    else
      match sequenceShape? first with
      | none => .error ⟨index, some 1⟩
      | some (low, high, more) =>
        let good := continuation low high more rest
        if good = more then
          let point := (rest.take more).foldl (fun n byte => 64 * n + byte.toNat % 64)
            (leadBits first more)
          (fromUtf8 (index + more + 1) (rest.drop more)).map (Char.ofNat point :: ·)
        else if good = rest.length then .error ⟨index, none⟩
        else .error ⟨index, some (good + 1)⟩
termination_by bytes.length
decreasing_by
  · simp
  · simp only [List.length_drop, List.length_cons]
    omega

/-- Reads bytes as UTF-8, with a replacement character for each bad sequence. -/
def fromUtf8Lossy (bytes : List UInt8) : List Char :=
  go bytes.length bytes
where
  go : Nat → List UInt8 → List Char
    | 0, _ => []
    | _, [] => []
    | fuel + 1, first :: rest =>
      if first < 0x80 then Char.ofNat first.toNat :: go fuel rest
      else
        match sequenceShape? first with
        | none => '\ufffd' :: go fuel rest
        | some (low, high, more) =>
          let good := continuation low high more rest
          if good = more then
            let point := (rest.take more).foldl (fun n byte => 64 * n + byte.toNat % 64)
              (leadBits first more)
            Char.ofNat point :: go fuel (rest.drop more)
          else '\ufffd' :: go fuel (rest.drop good)

def formText (text : List Char) : String :=
  let spaced := text.map fun c => if c = '+' then ' ' else c
  String.ofList (fromUtf8Lossy (percentDecode spaced))

/-- The names and values of form data. A part without an equals sign has no value. -/
def formPairs (text : List Char) : List (String × String) :=
  ((text.splitOn '&').filter (!·.isEmpty)).map fun part =>
    (formText (part.takeWhile (· ≠ '=')), formText ((part.dropWhile (· ≠ '=')).drop 1))

end Folio.Text
