import Dnfast.Data.Slice
import Dnfast.Trust.Grammar

/-! # Reads of the signature readers

`native/src/keyring_identity.c` and `rpm_signature.c`, with every read as the source does it: at an
offset into bytes of a known length. A read outside of these, a subtraction below zero and a loop
that goes on after as many rounds as there are bytes are faults, and none of them happens: each reader
here is the one over lists (`packetSpan_eq`, `claimedIssuer_eq`, `subkeyFingerprint_eq`,
`findFdSigner_eq`). `size_t` has 64 bits, and all sums are below 2³³. -/

namespace Dnfast.Trust.Reads

open Except (Safe okOr)

/-- A computation of the binding: with a result, without one (`-1` or `NULL`), or with a fault. -/
abbrev Reading (α : Type) : Type := Except (Fault Unit) α

def fail {α : Type} : Reading α := .error (.error ())

def refuse (c : Prop) [Decidable c] : Reading Unit := Except.refuseIf c (.error ())

/-- `data[i]`. -/
def byte (data : List UInt8) (i : Nat) : Reading UInt8 :=
  match data[i]? with
  | some b => .ok b
  | none => .error .panic

/-- An unsigned subtraction. -/
def minus (a b : Nat) : Reading Nat := if b ≤ a then .ok (a - b) else .error .panic

/-- The number in the bytes from a place on. -/
def be (width : Nat) (data : List UInt8) (start : Nat) : Reading Nat := do
  let bytes ← data.slice start (start + width)
  return beNat bytes

/-- The bytes from a place on, as `data + start` with the length that is left. -/
def tail (data : List UInt8) (start : Nat) : Reading (List UInt8) := do
  let left ← minus data.length start
  data.slice start (start + left)

/-- A result that may be `NULL`. -/
def orNull {α : Type} : Reading α → Reading (Option α)
  | .ok a => .ok (some a)
  | .error (.error ()) => .ok none
  | .error .panic => .error .panic

/-! ## Packets -/

/-- A length at a place: the end of it, and the size it says. -/
def lengthAt (limit : UInt8) (data : List UInt8) (i : Nat) : Reading (Nat × Nat) := do
  let b ← byte data i
  if b < 192 then return (i + 1, b.toNat)
  else if b < limit ∧ data.length ≥ i + 2 then do
    let high ← minus b.toNat 192
    let c ← byte data (i + 1)
    return (i + 2, high * 256 + c.toNat + 192)
  else if b = 255 ∧ data.length ≥ i + 5 then do
    let size ← be 4 data (i + 1)
    return (i + 5, size)
  else fail

def oldSizes (a : UInt8) (data : List UInt8) : Reading (Nat × Nat) :=
  if a &&& 3 = 0 then do
    let size ← be 1 data 1
    return (2, size)
  else if a &&& 3 = 1 ∧ data.length ≥ 3 then do
    let size ← be 2 data 1
    return (3, size)
  else if a &&& 3 = 2 ∧ data.length ≥ 5 then do
    let size ← be 4 data 1
    return (5, size)
  else fail

def sizes (a : UInt8) (data : List UInt8) : Reading (Nat × Nat) :=
  if a &&& 0x40 ≠ 0 then lengthAt 224 data 1 else oldSizes a data

def packetSpan (data : List UInt8) : Reading Span := do
  refuse (data.length < 2)
  let a ← byte data 0
  refuse (a &&& 0x80 = 0)
  let (header, body) ← sizes a data
  let left ← minus data.length header
  refuse (body > left)
  return ⟨tagOf a, header, body⟩

def subpacketSpan (data : List UInt8) : Reading (Nat × Nat) := do
  refuse (data.length = 0)
  let (header, body) ← lengthAt 255 data 0
  let left ← minus data.length header
  refuse (¬ (body ≤ left ∧ body > 0))
  return (header, body)

/-! ## The issuer -/

def issuerOf (found : Option (List UInt8)) (subpacket : List UInt8) :
    Reading (Option (List UInt8)) := do
  refuse (found.isSome ∨ subpacket.length ≠ 22)
  let version ← byte subpacket 1
  refuse (version ≠ 4)
  let fingerprint ← subpacket.slice 2 22
  return some fingerprint

/-- What is found after a subpacket. The bit that says whether it is critical does not count. -/
def issuerNext (found : Option (List UInt8)) (type : UInt8) (subpacket : List UInt8) :
    Reading (Option (List UInt8)) :=
  if type &&& 0x7f = 33 then issuerOf found subpacket else .ok found

/-- A round of the loop over the hashed subpackets. -/
def issuerStep (hashed : List UInt8) (cursor : Nat) (found : Option (List UInt8)) :
    Reading (Nat × Option (List UInt8)) := do
  let area ← tail hashed cursor
  let (header, body) ← subpacketSpan area
  let subpacket ← hashed.slice (cursor + header) (cursor + header + body)
  let type ← byte subpacket 0
  let found ← issuerNext found type subpacket
  return (cursor + header + body, found)

def issuerLoop (hashed : List UInt8) : Nat → Nat → Option (List UInt8) →
    Reading (Option (List UInt8))
  | rounds, cursor, found =>
    if cursor < hashed.length then
      match rounds with
      | 0 => .error .panic
      | rounds + 1 => do
        let (cursor, found) ← issuerStep hashed cursor found
        issuerLoop hashed rounds cursor found
    else .ok found

/-- The first part of `dnfast_keyring_find_packet_signer`. -/
def claimedIssuer (packet : List UInt8) : Reading (List UInt8) := do
  let span ← packetSpan packet
  refuse (span.header + span.body ≠ packet.length ∨ span.tag ≠ 2 ∨ span.body < 6)
  let version ← byte packet span.header
  refuse (version ≠ 4)
  let body ← packet.slice span.header (span.header + span.body)
  let hashedLen ← be 2 body 4
  let limit ← minus span.body 6
  refuse (hashedLen > limit)
  let hashed ← body.slice 6 (6 + hashedLen)
  let found ← issuerLoop hashed hashedLen 0 none
  okOr found (.error ())

/-- A round of the loop over the identities. -/
def selectStep (fingerprint : String) (found : Option SignerIdentity) (item : SignerIdentity) :
    Reading (Option SignerIdentity) :=
  if fingerprint = item.signing then
    if found.isSome then fail else .ok (some item)
  else .ok found

def findPacketSigner (identities : List SignerIdentity) (packet : List UInt8) :
    Reading SignerIdentity := do
  let fingerprint ← claimedIssuer packet
  let found ← identities.foldlM (selectStep (hexUpper fingerprint)) none
  okOr found (.error ())

section
variable (lib : Librpm)

/-! ## Subkeys -/

def v4Fingerprint (body : List UInt8) : Reading (Option (List UInt8)) :=
  if body.length > 65535 ∨ body.length = 0 then .ok none
  else do
    let version ← byte body 0
    return if version ≠ 4 then none else
      some (lib.sha1 ([0x99, UInt8.ofNat (body.length / 256), UInt8.ofNat body.length] ++ body))

/-- The fingerprint, if its last bytes are the key id. -/
def matchKeyId (keyId : String) : Option (List UInt8) → Reading (Option String)
  | some fingerprint =>
    if fingerprint.length = 20 then do
      let parsed ← fingerprint.slice 12 20
      return if hexUpper parsed = toUpper keyId then some (hexUpper fingerprint) else none
    else .ok none
  | none => .ok none

def subkeyAt (keyId : String) (certificate : List UInt8) (offset : Nat) (span : Span) :
    Reading (Option String) :=
  if span.tag = 14 then do
    let body ← certificate.slice (offset + span.header) (offset + span.header + span.body)
    let fingerprint ← v4Fingerprint lib body
    matchKeyId keyId fingerprint
  else .ok none

def subkeyLoop (keyId : String) (certificate : List UInt8) : Nat → Nat → Reading String
  | rounds, offset =>
    if offset < certificate.length then
      match rounds with
      | 0 => .error .panic
      | rounds + 1 => do
        let area ← tail certificate offset
        let span ← packetSpan area
        match ← subkeyAt lib keyId certificate offset span with
        | some fingerprint => .ok fingerprint
        | none => subkeyLoop keyId certificate rounds (offset + span.header + span.body)
    else fail

def subkeyFingerprint (keyId : String) (certificate : List UInt8) : Reading String :=
  subkeyLoop lib keyId certificate certificate.length 0

/-! ## The signature header of a file -/

/-- What is read of the signature header: the counts, and the index with the data behind it. -/
structure Contents where
  indexCount : Nat
  dataSize : Nat
  bytes : List UInt8

def Contents.indexBytes (c : Contents) : Nat := c.indexCount * 16

def readContents (file : List UInt8) : Reading Contents := do
  -- `pread` gives fewer bytes at the end of the file
  let intro := (file.drop leadSize).take headerSize
  refuse (intro.length ≠ headerSize)
  let magic ← intro.slice 0 4
  refuse (magic ≠ [0x8e, 0xad, 0xe8, 1])
  let indexCount ← be 4 intro 8
  let dataSize ← be 4 intro 12
  refuse (indexCount = 0 ∨ indexCount > maxSigIndex ∨ dataSize = 0 ∨ dataSize > maxSigData)
  let total := indexCount * 16 + dataSize
  let contents := (file.drop (leadSize + headerSize)).take total
  refuse (contents.length ≠ total)
  return ⟨indexCount, dataSize, contents⟩

def findEncodedSigner (identities : List SignerIdentity) (encoded : List UInt8) :
    Reading SignerIdentity := do
  let packet ← okOr (lib.base64Decode encoded) (.error ())
  findPacketSigner identities packet

/-- A round of the loop over the index. -/
def entrySigner (identities : List SignerIdentity) (c : Contents) (index : Nat) :
    Reading (Option SignerIdentity) := do
  let entry ← c.bytes.slice (index * 16) (index * 16 + 16)
  let tag ← be 4 entry 0
  let type ← be 4 entry 4
  let offset ← be 4 entry 8
  let count ← be 4 entry 12
  if (tag = tagRsaHeader ∨ tag = tagDsaHeader) ∧ type = 7 ∧ offset ≤ c.dataSize ∧
      count ≤ c.dataSize - offset then do
    let packet ← c.bytes.slice (c.indexBytes + offset) (c.indexBytes + offset + count)
    orNull (findPacketSigner identities packet)
  else if tag ≠ tagOpenpgp ∨ offset ≥ c.dataSize then return none
  else do
    let available ← c.bytes.slice (c.indexBytes + offset) (c.indexBytes + c.dataSize)
    if 0 ∈ available then orNull (findEncodedSigner lib identities (available.takeWhile (· ≠ 0)))
    else return none

/-- The loop over the index, up to the first signer. -/
def entryLoop (identities : List SignerIdentity) (c : Contents) : List Nat →
    Reading (Option SignerIdentity)
  | [] => .ok none
  | index :: indices => do
    match ← entrySigner lib identities c index with
    | some signer => .ok (some signer)
    | none => entryLoop identities c indices

def findFdSigner (identities : List SignerIdentity) (file : List UInt8) : Reading SignerIdentity := do
  let c ← readContents file
  let found ← entryLoop lib identities c (List.range c.indexCount)
  okOr found (.error ())

end

end Dnfast.Trust.Reads
