import InstanceResize.Text.Digits
import InstanceResize.Text.Parts

/-!
# Hosts

A host is given by a name or by an address, of four bytes or of eight groups of sixteen bits.

* `Host.bytes?`: the four bytes of an address, whose parts may be written in base eight, ten or
  sixteen. Of fewer than four parts, the last one stands for all bytes that are left.
* `Host.groups?`: the groups of an address; two colons stand for groups that are zero.
* `Host.isLocal`: whether a host is this machine, or any of its addresses.
-/

namespace InstanceResize.Server.Host

/-! ## Four bytes -/

/-- The digits of a number in base eight, ten or sixteen. -/
def digits? (base : Nat) (cs : List Char) : Option (List Nat) :=
  if cs.isEmpty then none
  else cs.mapM fun c => (Text.hexDigit? c).filter (· < base)

/-- A number whose beginning tells its base: `0x` for sixteen, `0` for eight. -/
def number? (cs : List Char) : Option Nat :=
  match cs with
  | '0' :: 'x' :: rest | '0' :: 'X' :: rest => (digits? 16 rest).map (Text.value 16)
  | '0' :: rest => (digits? 8 ('0' :: rest)).map (Text.value 8)
  | _ => (digits? 10 cs).map (Text.value 10)

/-- The bytes that parts stand for, of which `left` are left. -/
def fill? : (left : Nat) → List Nat → Option (List Nat)
  | 0, _ => none
  | _, [] => none
  | left + 1, [n] =>
    if n < Nat.pow 256 (left + 1) then
      some ((List.range (left + 1)).reverse.map fun i => n / Nat.pow 256 i % 256)
    else none
  | left + 1, n :: rest => if n < 256 then (fill? left rest).map (n :: ·) else none

/-- The bytes of an address. -/
def bytes? (host : List Char) : Option (List Nat) := do
  fill? 4 (← (Text.splitOn '.' host).mapM number?)

/-! ## Eight groups -/

/-- A byte in decimal without leading zeros. -/
def byte? (cs : List Char) : Option Nat :=
  if 1 < cs.length ∧ cs.head? = some '0' then none
  else ((digits? 10 cs).map (Text.value 10)).filter (· < 256)

/-- A group of at most four digits, or two groups as four bytes. -/
def group? (cs : List Char) : Option (List Nat) :=
  if cs.contains '.' then do
    match ← (Text.splitOn '.' cs).mapM byte? with
    | [a, b, c, d] => return [a * 256 + b, c * 256 + d]
    | _ => none
  else if 4 < cs.length then none
  else (digits? 16 cs).map fun ds => [Text.value 16 ds]

/-- The groups between colons; only the last one may be written as bytes. -/
def row? (cs : List Char) : Option (List Nat) :=
  if cs.isEmpty then some []
  else
    let parts := Text.splitOn ':' cs
    if parts.dropLast.any (·.contains '.') then none else (parts.mapM group?).map List.flatten

/-- A text before and after its first two colons in a row. -/
def atGap : List Char → Option (List Char × List Char)
  | ':' :: ':' :: rest => some ([], rest)
  | c :: rest => (atGap rest).map fun (before, after) => (c :: before, after)
  | [] => none

/-- The groups of an address. -/
def groups? (host : List Char) : Option (List Nat) := do
  match atGap host with
  | none =>
    let groups ← row? host
    if groups.length = 8 then return groups else none
  | some (before, after) =>
    let front ← if before.contains '.' then none else row? before
    let back ← row? after
    let length := front.length + back.length
    if length < 8 then return front ++ List.replicate (8 - length) 0 ++ back else none

/-! ## This machine -/

/-- Whether four bytes stand for this machine, or for any of its addresses. -/
def isLocalBytes (bytes : List Nat) : Bool := bytes.head? == some 127 || bytes.all (· == 0)

/-- Whether eight groups stand for this machine, or for any of its addresses. -/
def isLocalGroups (groups : List Nat) : Bool :=
  match groups with
  | [0, 0, 0, 0, 0, 0, 0, n] => n ≤ 1
  | [0, 0, 0, 0, 0, 0xFFFF, high, low] =>
    isLocalBytes [high / 256, high % 256, low / 256, low % 256]
  | _ => false

/-- The text in a pair of brackets. -/
def inBrackets? (host : List Char) : Option (List Char) :=
  if host.head? = some '[' ∧ host.getLast? = some ']' then some host.tail.dropLast else none

/-- Whether a host is this machine, so that a server can listen there. -/
def isLocal (host : String) : Bool :=
  let cs := host.toList
  match inBrackets? cs with
  | some inner => (groups? inner).any isLocalGroups
  | none =>
    cs.map Char.toLower == "localhost".toList || (bytes? cs).any isLocalBytes ||
      (groups? cs).any isLocalGroups

end InstanceResize.Server.Host
