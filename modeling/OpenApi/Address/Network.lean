-- SUMMARY: Networks: an internet address and perhaps the length of its fixed part.
import OpenApi.Address.Ip

/-!
# Networks

A network is an address, or an address, a slash and the number of leading bits
that are fixed. The number may have a plus sign and zeros in front; behind a
slash with nothing after it no bit count is asked for.
-/

namespace OpenApi

/-- The families of addresses that a network may come from. -/
inductive NetworkFamily where
  | v4 | v6 | any
deriving DecidableEq, Repr

namespace Network

/-- Why a text is no network. -/
inductive Fault where
  | noAddress (text : String)
  | wrongFamily (wanted : NetworkFamily)
  | badLength (text : String)
deriving DecidableEq, Repr

/-- The message for a fault. -/
def Fault.message : Fault → String
  | .noAddress text => "`" ++ text ++ "` is not an ip address"
  | .wrongFamily .v4 => "expected an ipv4 network"
  | .wrongFamily _ => "expected an ipv6 network"
  | .badLength text => "prefix `/" ++ text ++ "` out of range"

/-- The text before the first slash and the text behind it; nothing behind a missing one. -/
def splitSlash (text : List Char) : List Char × List Char :=
  let front := text.takeWhile (· ≠ '/')
  (front, text.drop (front.length + 1))

/-- Whether an address is of the wrong family. -/
def excludes : NetworkFamily → Ip → Bool
  | .v4, ip => ip.isV6
  | .v6, ip => !ip.isV6
  | .any, _ => false

/-- The number of bits of an address. -/
def width (ip : Ip) : Nat := if ip.isV6 then 128 else 32

/-- The number in decimal digits, which may have a plus sign in front. -/
def lengthValue? (text : List Char) : Option Nat :=
  let digits := if text.head? = some '+' then text.drop 1 else text
  if digits.isEmpty || !digits.all Char.isDigit then none else some (Digits.value digits)

/-- Check a text to be a network of a family. -/
def check (family : NetworkFamily) (text : String) : Except Fault Unit :=
  let (front, back) := splitSlash text.toList
  match Ip.read front with
  | none => .error (.noAddress (String.ofList front))
  | some ip =>
    if excludes family ip then .error (.wrongFamily family)
    else if back.isEmpty then .ok ()
    else
      match lengthValue? back with
      | some n => if n ≤ width ip then .ok () else .error (.badLength (String.ofList back))
      | none => .error (.badLength (String.ofList back))

end Network
end OpenApi
