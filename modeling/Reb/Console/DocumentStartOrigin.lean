/-
# Console.DocumentStartOrigin -- the origins of a document start rule, as both sides read them

The browser checks an origin in `native_console_document_start.h`, the backend in
`native_console.rs`; both read an IPv6 literal, write the address back and compare the
texts.  What is the same loop in both languages stands first, with a parameter for where
they differ: the position of a `::` is 8 for none in the browser and an option in the
backend.  Text is its bytes.
-/
import Reb.Theory.Decimal
import Reb.Theory.Ipv6
import Reb.Theory.StringView
import Reb.Theory.Utf8

namespace Reb.Console.Origin

set_option autoImplicit false

open Theory Theory.Decimal Theory.Ipv6 Theory.StringView Theory.Utf8

/-! ## Loops of both sides -/

def groupDigit (character : UInt8) : Option Nat :=
  if isDigit character then some (character.toNat - (byte '0').toNat)
  else if byte 'a' ≤ character ∧ character ≤ byte 'f' then
    some (character.toNat - (byte 'a').toNat + 10)
  else none

/-- The loop over the digits of a group: the value, the digits read and what follows. -/
def readDigits : Nat → List UInt8 → Nat → Nat → Nat × Nat × List UInt8
  | 0, text, value, digits => (value, digits, text)
  | _ + 1, [], value, digits => (value, digits, [])
  | budget + 1, character :: text, value, digits =>
      match groupDigit character with
      | none => (value, digits, character :: text)
      | some digit => readDigits budget text (value * 16 + digit) (digits + 1)

/-- The loop over the groups, with room for as many more. -/
def readPieces {κ : Type} (unset : κ → Bool) (at_ : Nat → κ) :
    Nat → List UInt8 → List Nat → κ → Option (List Nat × κ)
  | 0, text, pieces, compress => if text = [] then some (pieces, compress) else none
  | room + 1, text, pieces, compress =>
      if text = [] then some (pieces, compress)
      else
        match readDigits 5 text 0 0 with
        | (value, digits, rest) =>
            if digits = 0 ∨ 4 < digits then none
            else
              match rest with
              | [] => some (pieces ++ [value], compress)
              | [_] => none
              | first :: second :: rest =>
                  if first ≠ colon then none
                  else if second = colon then
                    if unset compress then
                      readPieces unset at_ room rest (pieces ++ [value]) (at_ (pieces.length + 1))
                    else none
                  else readPieces unset at_ room (second :: rest) (pieces ++ [value]) compress

/-- The search for the first longest run of zeros: where it starts and how long it is. -/
def searchRuns (pieces : List Nat) : Nat → Nat → Nat → Nat → Nat × Nat
  | 0, _, best, best_length => (best, best_length)
  | fuel + 1, start, best, best_length =>
      if pieces.length ≤ start then (best, best_length)
      else if pieces.getD start 0 ≠ 0 then searchRuns pieces fuel (start + 1) best best_length
      else
        let stop := start + ((pieces.drop start).takeWhile (· == 0)).length
        if best_length < stop - start then searchRuns pieces fuel stop start (stop - start)
        else searchRuns pieces fuel stop best best_length

/-- The loop that writes the pieces. -/
def writePieces (hex : Nat → List UInt8) (pieces : List Nat) (best best_length : Nat) :
    Nat → Nat → List UInt8
  | 0, _ => []
  | fuel + 1, piece =>
      if pieces.length ≤ piece then []
      else if piece = best then
        (if piece = 0 then [colon, colon] else [colon])
          ++ writePieces hex pieces best best_length fuel (piece + best_length)
      else
        hex (pieces.getD piece 0) ++ (if piece + 1 < pieces.length then [colon] else [])
          ++ writePieces hex pieces best best_length fuel (piece + 1)

def written (hex : Nat → List UInt8) (pieces : List Nat) : List UInt8 :=
  let best := searchRuns pieces pieces.length 0 pieces.length 1
  writePieces hex pieces best.1 best.2 pieces.length 0

/-! ## The browser -/

namespace Browser

/-- The digits of a piece, without leading zeros. -/
def hexDigits (piece : Nat) : List Nat → Bool → List UInt8
  | [], _ => []
  | shift :: shifts, leading =>
      let digit := (piece >>> shift) &&& 0xf
      if leading ∧ digit = 0 ∧ shift ≠ 0 then hexDigits piece shifts leading
      else hexDigit digit :: hexDigits piece shifts false

/-- The loop that moves the pieces behind a `::` to the end. -/
def movePieces (count : Nat) : Nat → Nat → List Nat → List Nat
  | 0, _, pieces => pieces
  | left + 1, moved, pieces =>
      movePieces count left (moved + 1)
        ((pieces.set (7 - moved) (pieces.getD (count - 1 - moved) 0)).set (count - 1 - moved) 0)

def canonicalIPv6 (text : List UInt8) : Bool :=
  let start := if [colon, colon].isPrefixOf text then (text.drop 2, 0) else (text, 8)
  match readPieces (· == 8) id 8 start.1 [] start.2 with
  | none => false
  | some (read, compress) =>
      let count := read.length
      if (if compress = 8 then count != 8 else decide (8 ≤ count)) = true then false
      else
        let pieces := read ++ List.replicate (8 - count) 0
        let pieces := if compress ≠ 8 then movePieces count (count - compress) 0 pieces else pieces
        text == written (fun piece => hexDigits piece [12, 8, 4, 0] true) pieces

/-- The loop over the octets. -/
def octetsAdmitted : List (List UInt8) → Nat → Bool
  | [], octets => octets == 4
  | octet :: rest, octets =>
      if octets = 4 ∨ octet = [] ∨ 3 < octet.length ∨
          1 < octet.length ∧ octet.head? = some (byte '0') then false
      else if !octet.all isDigit then false
      else if 255 < positional 0 octet then false
      else octetsAdmitted rest (octets + 1)

def canonicalHostName (host : List UInt8) : Bool :=
  let last := (rfind host (byte '.')).elim host fun dot => host.drop (dot + 1)
  let prefixed := (ascii "0x").isPrefixOf last
  let numeric := !last.isEmpty && (last.drop (if prefixed then 2 else 0)).all fun character =>
    prefixed && byte 'a' ≤ character && character ≤ byte 'f' || isDigit character
  if !numeric then true else octetsAdmitted (host.splitOn (byte '.')) 0

/-- The loop over the bytes of a name. -/
def nameBytes : List UInt8 → Bool → Bool
  | [], _ => true
  | character :: rest, previous_dot =>
      let letter := byte 'a' ≤ character && character ≤ byte 'z'
      if !letter && !isDigit character && character != byte '.' && character != byte '-' then false
      else if character == byte '.' && previous_dot then false
      else nameBytes rest (character == byte '.')

def hostName (host : List UInt8) : Bool :=
  if host = [] ∨ host.head? = some (byte '.') ∨ host.head? = some (byte '-') ∨
      host.getLast? = some (byte '-') ∨ host.getLast? = some (byte '.') then false
  else nameBytes host false && canonicalHostName host

def portAdmitted (port : List UInt8) (default_port : Nat) : Bool :=
  if port = [] ∨ 5 < port.length ∨ port.head? = some (byte '0') then false
  else if !port.all isDigit then false
  else positional 0 port != 0 && positional 0 port ≤ 65535 && positional 0 port != default_port

/-- What follows the scheme. -/
def hostAdmitted (host : List UInt8) (default_port : Nat) : Bool :=
  if host = [] ∨ 255 < host.length then false
  else if host.head? = some (byte '[') then
    match StringView.find host (byte ']') 0 with
    | none => false
    | some close =>
        if !canonicalIPv6 (substr host 1 (close - 1)) then false
        else
          match host.drop (close + 1) with
          | [] => true
          | mark :: port => if mark ≠ colon then false else portAdmitted port default_port
  else
    match StringView.find host colon 0 with
    | none => hostName host
    | some at_ =>
        hostName (substr host 0 at_) && portAdmitted (host.drop (at_ + 1)) default_port

def isValidNativeConsoleDocumentStartOrigin (origin : List UInt8) : Bool :=
  if (ascii "http://").isPrefixOf origin then hostAdmitted (origin.drop 7) 80
  else if (ascii "https://").isPrefixOf origin then hostAdmitted (origin.drop 8) 443
  else false

end Browser

/-! ## The backend -/

namespace Backend

/-- `pieces.copy_within(start..stop, dest)` -/
def copyWithin (pieces : List Nat) (start stop dest : Nat) : List Nat :=
  pieces.take dest ++ (pieces.drop start).take (stop - start) ++ pieces.drop (dest + (stop - start))

/-- `pieces[start..stop].fill(0)` -/
def fill (pieces : List Nat) (start stop : Nat) : List Nat :=
  pieces.take start ++ List.replicate (stop - start) 0 ++ pieces.drop stop

def canonicalIpv6 (text : List UInt8) : Bool :=
  let start := if [colon, colon].isPrefixOf text then (text.drop 2, some 0) else (text, none)
  match readPieces Option.isNone some 8 start.1 [] start.2 with
  | none => false
  | some (read, compress) =>
      let count := read.length
      let pieces := read ++ List.replicate (8 - count) 0
      match compress with
      | none => if count ≠ 8 then false else text == written hexText pieces
      | some at_ =>
          if 8 ≤ count then false
          else
            let gap := 8 - (count - at_)
            text == written hexText (fill (copyWithin pieces at_ count gap) at_ gap)

def octetAdmitted (octet : List UInt8) : Bool :=
  !octet.isEmpty && octet.length ≤ 3 && !(1 < octet.length && octet.head? == some (byte '0')) &&
    octet.all isDigit && positional 0 octet ≤ 255

def canonicalHostName (host : List UInt8) : Bool :=
  let octets := host.splitOn (byte '.')
  let last := octets.getLast?.getD host
  let numeric := !last.isEmpty &&
    if (ascii "0x").isPrefixOf last then
      (last.drop 2).all fun character =>
        isDigit character || byte 'a' ≤ character && character ≤ byte 'f'
    else last.all isDigit
  if !numeric then true else octets.length == 4 && octets.all octetAdmitted

def hostName (name : List UInt8) : Bool :=
  !(name.isEmpty || name.head? == some (byte '.') || name.head? == some (byte '-') ||
    name.getLast? == some (byte '.') || name.getLast? == some (byte '-') ||
    decide ([byte '.', byte '.'] <:+: name) ||
    !(name.all fun character =>
      byte 'a' ≤ character && character ≤ byte 'z' || isDigit character ||
        character == byte '.' || character == byte '-') ||
    !canonicalHostName name)

def portAdmitted (port : List UInt8) (default_port : Nat) : Bool :=
  !(port.isEmpty || 5 < port.length || port.head? == some (byte '0') || !port.all isDigit) &&
    (positional 0 port ≤ 65535 && positional 0 port != default_port)

/-- What follows the scheme. -/
def hostAdmitted (host : List UInt8) (default_port : Nat) : Bool :=
  if host.isEmpty || 255 < host.length then false
  else if host.head? = some (byte '[') then
    let literal := host.drop 1
    match StringView.find literal (byte ']') 0 with
    | none => false
    | some close =>
        if !canonicalIpv6 (literal.take close) then false
        else
          match literal.drop (close + 1) with
          | [] => true
          | mark :: port => if mark = colon then portAdmitted port default_port else false
  else
    match StringView.find host colon 0 with
    | none => hostName host
    | some at_ => hostName (host.take at_) && portAdmitted (host.drop (at_ + 1)) default_port

def documentStartOrigin (origin : List UInt8) : Bool :=
  if (ascii "http://").isPrefixOf origin then hostAdmitted (origin.drop 7) 80
  else if (ascii "https://").isPrefixOf origin then hostAdmitted (origin.drop 8) 443
  else false

end Backend

end Reb.Console.Origin
