import MolecularTools.Archive.Extended
import MolecularTools.Archive.Source

/-! Members of an archive. Every member has a header; what is too long for it stands in the
content of special members before it. -/
namespace MolecularTools.Archive

inductive MemberKind where
  | directory | file | symbolicLink | hardLink
  /-- Carries settings only. -/
  | settings
deriving DecidableEq, Repr

structure Member where
  header : Header
  path : ByteArray
  linkPath : Option ByteArray
  /-- Where the content begins, and its length. -/
  start : Nat
  size : Nat

def malformed (what : String) : IoError := .malformed what

/-- A member whose header was read, and the place of the next header. -/
structure RawMember where
  header : Header
  start : Nat
  size : Nat
  next : Nat

/-- Long texts that count for the next member. -/
structure Pending where
  path : Option ByteArray := none
  linkPath : Option ByteArray := none
  extended : Option ByteArray := none

def roundUp (n : Nat) : Nat := (n + (blockSize - 1)) / blockSize * blockSize

/-- The header block at a place. At the end of the data there is none, and a block of zeros is
none either; a block that is cut off cannot be read. -/
def headerAt (s : Source) (i : Nat) : Except IoError (Option Header) :=
  if s.bytes.size < i then .error (s.shortage.getD (malformed "unexpected end of archive"))
  else if i + blockSize ≤ s.bytes.size then
    let h : Header := ⟨s.bytes.extract i (i + blockSize)⟩
    .ok (if h.isBlank then none else some h)
  else match s.shortage with
    | some e => .error e
    | none =>
      if i = s.bytes.size then .ok none else .error (malformed "failed to read entire block")

/-- Reads one header. A length in an extended header goes before the header's own. -/
def rawMember (s : Source) (p : Pending) (i : Nat) : Except IoError (Option RawMember) := do
  match ← headerAt s i with
  | none => .ok none
  | some h =>
    if !h.isSound then throw (malformed "archive header checksum mismatch")
    let some own := h.size? | throw (malformed "numeric field was not a number")
    let size := ((p.extended.bind (Extended.number? · "size")).getD own)
    let start := i + blockSize
    let next := start + roundUp size
    if Text.wordBound ≤ size + (blockSize - 1) || Text.wordBound ≤ next then
      throw (malformed "size overflow")
    return some ⟨h, start, size, next⟩

/-- The whole content, as far as the data goes. -/
def RawMember.content (m : RawMember) (s : Source) : Except IoError ByteArray :=
  if s.bytes.size < m.start + m.size then
    match s.shortage with
    | some e => .error e
    | none => .ok (s.bytes.extract m.start s.bytes.size)
  else .ok (s.bytes.extract m.start (m.start + m.size))

/-- A text without the zero that may end it. -/
def withoutZero (b : ByteArray) : ByteArray :=
  if b.data.back? = some 0 then b.extract 0 (b.size - 1) else b

def ofRaw (m : RawMember) (p : Pending) : Member where
  header := m.header
  path := match p.path with
    | some b => withoutZero b
    | none => (p.extended.bind (Extended.text? · "path")).getD m.header.path
  linkPath := match p.linkPath with
    | some b => some (withoutZero b)
    | none => (p.extended.bind (Extended.text? · "linkpath")).or m.header.linkPath?
  start := m.start
  size := m.size

/-- Reads the next member and the place behind it. The special members before it are read up
to `fuel` many; each takes a block at least. -/
def memberWithin (s : Source) : Nat → Pending → Bool → Nat → Except IoError (Option (Member × Nat))
  | 0, _, _, _ => .ok none
  | fuel + 1, p, first, i => do
    match ← rawMember s p i with
    | none => if first then .ok none else .error (malformed "members describing a missing member")
    | some m =>
      let special := m.header.isGnu || m.header.isUstar
      let twice := malformed "two entries describing the same member"
      if special && m.header.kind = 'L' then
        if p.path.isSome then throw twice
        memberWithin s fuel { p with path := some (← m.content s) } false m.next
      else if special && m.header.kind = 'K' then
        if p.linkPath.isSome then throw twice
        memberWithin s fuel { p with linkPath := some (← m.content s) } false m.next
      else if special && m.header.kind = 'x' then
        if p.extended.isSome then throw twice
        memberWithin s fuel { p with extended := some (← m.content s) } false m.next
      else if m.header.kind = 'S' then throw (malformed "unsupported sparse member")
      else .ok (some (ofRaw m p, m.next))

/-- The member at a place and the place behind it. -/
def memberAt (s : Source) (i : Nat) : Except IoError (Option (Member × Nat)) :=
  memberWithin s (s.bytes.size / blockSize + 1) {} true i

namespace Member

/-- Headers of the oldest form mark a directory by a slash behind its path. Kinds that are not
known are files. -/
def kind (m : Member) : MemberKind :=
  match m.header.kind with
  | '5' => .directory
  | '1' => .hardLink
  | '2' => .symbolicLink
  | 'g' => .settings
  | 'x' => .settings
  | 'L' => .settings
  | 'K' => .settings
  | _ =>
    if !m.header.isUstar && m.path.data.back? = some '/'.toNat.toUInt8 then .directory else .file

/-- Whether the member is extracted after all others. -/
def isDelayed (m : Member) : Bool := m.header.kind = '5'

end Member

end MolecularTools.Archive
