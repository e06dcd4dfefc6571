import Mathlib.Data.List.Basic

/-! # Bytes of signatures

`native/src/keyring_identity.c` and `rpm_signature.c`: the hand-written readers of OpenPGP packets
and of the signature header of an RPM file. A signature packet claims its issuer by a fingerprint in
its hashed part (`claimedIssuer`); nothing here says that the claim is true. -/

namespace Dnfast.Trust

/-- Bytes as a number, the first one the greatest. -/
def beNat (bytes : List UInt8) : Nat := bytes.foldl (fun n b => 256 * n + b.toNat) 0

def be32 (bytes : List UInt8) : Nat := beNat (bytes.take 4)

def hexDigit (n : Nat) : Char :=
  ['0', '1', '2', '3', '4', '5', '6', '7', '8', '9', 'A', 'B', 'C', 'D', 'E', 'F'].getD n '0'

def hexUpper (bytes : List UInt8) : String :=
  String.ofList (bytes.flatMap fun b => [hexDigit (b.toNat / 16), hexDigit (b.toNat % 16)])

/-! ## Packets -/

structure Span where
  tag : Nat
  header : Nat
  body : Nat
  deriving DecidableEq, Repr

/-- The sizes of header and body of a packet in the new format. -/
def newSizes : List UInt8 → Option (Nat × Nat)
  | _ :: b :: rest =>
    if b < 192 then some (2, b.toNat)
    else if b < 224 ∧ 1 ≤ rest.length then
      some (3, (b.toNat - 192) * 256 + beNat (rest.take 1) + 192)
    else if b = 255 ∧ 4 ≤ rest.length then some (6, be32 rest)
    else none
  | _ => none

/-- The same in the old format. -/
def oldSizes : List UInt8 → Option (Nat × Nat)
  | a :: rest =>
    if a &&& 3 = 0 then some (2, beNat (rest.take 1))
    else if a &&& 3 = 1 ∧ 2 ≤ rest.length then some (3, beNat (rest.take 2))
    else if a &&& 3 = 2 ∧ 4 ≤ rest.length then some (5, be32 rest)
    else none
  | [] => none

def packetSpan (data : List UInt8) : Option Span :=
  match data with
  | a :: _ :: _ =>
    if a &&& 0x80 = 0 then none
    else do
      let isNew := a &&& 0x40 ≠ 0
      let (header, body) ← if isNew then newSizes data else oldSizes data
      if body > data.length - header then none
      else some ⟨if isNew then (a &&& 0x3f).toNat else (a >>> 2 &&& 15).toNat, header, body⟩
  | _ => none

/-- The sizes of header and body of a subpacket. -/
def subpacketSpan : List UInt8 → Option (Nat × Nat)
  | [] => none
  | a :: rest => do
    let (header, body) ←
      if a < 192 then some (1, a.toNat)
      else if a < 255 ∧ 1 ≤ rest.length then
        some (2, (a.toNat - 192) * 256 + beNat (rest.take 1) + 192)
      else if a = 255 ∧ 4 ≤ rest.length then some (5, be32 rest)
      else none
    if body ≤ rest.length + 1 - header ∧ 0 < body then some (header, body) else none

/-- The loop over the hashed subpackets, with the fingerprint found so far. Every subpacket takes
bytes, so that as many rounds as there are bytes are enough. -/
def issuerFrom : Nat → Option (List UInt8) → List UInt8 → Option (List UInt8)
  | _, found, [] => found
  | 0, _, _ :: _ => none
  | rounds + 1, found, data => do
    let (header, body) ← subpacketSpan data
    let subpacket := data.drop header
    let rest := subpacket.drop body
    -- the type without the bit that says whether it is critical
    if subpacket.head?.map (· &&& 0x7f) = some 33 then
      if found.isSome ∨ body ≠ 22 ∨ (subpacket.drop 1).head? ≠ some 4 then none
      else issuerFrom rounds (some ((subpacket.drop 2).take 20)) rest
    else issuerFrom rounds found rest

/-- The fingerprint by which a version 4 signature packet claims its issuer. -/
def claimedIssuer (packet : List UInt8) : Option (List UInt8) := do
  let span ← packetSpan packet
  let body := packet.drop span.header
  if span.header + span.body ≠ packet.length ∨ span.tag ≠ 2 ∨ span.body < 6 ∨ body.head? ≠ some 4 then
    none
  else
    let hashed := beNat ((body.drop 4).take 2)
    if hashed > span.body - 6 then none
    else issuerFrom hashed none ((body.drop 6).take hashed)

/-! ## The signature header of a file -/

def leadSize : Nat := 96
def headerSize : Nat := 16
def maxSigIndex : Nat := 4096
def maxSigData : Nat := 16 * 1024 * 1024

/-- The tags of librpm. -/
def tagDsaHeader : Nat := 267
def tagRsaHeader : Nat := 268
def tagOpenpgp : Nat := 278

/-- The first 16 bytes of a header, if they are there: `pread` of all of them, and the magic. -/
def headerIntro (file : List UInt8) (start : Nat) : Option (List UInt8) :=
  let intro := (file.drop start).take headerSize
  if intro.length = headerSize ∧ intro.take 4 = [0x8e, 0xad, 0xe8, 1] then some intro else none

/-- The index and the data of the signature header. -/
structure SignatureArea where
  indexCount : Nat
  index : List UInt8
  data : List UInt8

def signatureArea (file : List UInt8) : Option SignatureArea := do
  let intro ← headerIntro file leadSize
  let indexCount := be32 (intro.drop 8)
  let dataSize := be32 (intro.drop 12)
  if indexCount = 0 ∨ indexCount > maxSigIndex ∨ dataSize = 0 ∨ dataSize > maxSigData then none
  else
    let total := indexCount * 16 + dataSize
    let contents := (file.drop (leadSize + headerSize)).take total
    if contents.length ≠ total then none
    else some ⟨indexCount, contents.take (indexCount * 16), contents.drop (indexCount * 16)⟩

/-- The signature packet that an entry of the index has, if it has one. Of the texts of an OpenPGP
entry the first is taken. -/
def entryPacket (base64Decode : List UInt8 → Option (List UInt8)) (area : SignatureArea) (i : Nat) :
    Option (List UInt8) :=
  let entry := area.index.drop (i * 16)
  let tag := be32 entry
  let type := be32 (entry.drop 4)
  let offset := be32 (entry.drop 8)
  let count := be32 (entry.drop 12)
  if (tag = tagRsaHeader ∨ tag = tagDsaHeader) ∧ type = 7 ∧ offset ≤ area.data.length ∧
      count ≤ area.data.length - offset then
    some ((area.data.drop offset).take count)
  else if tag ≠ tagOpenpgp ∨ offset ≥ area.data.length then none
  else
    let available := area.data.drop offset
    if 0 ∈ available then base64Decode (available.takeWhile (· ≠ 0)) else none

end Dnfast.Trust
