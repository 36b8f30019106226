/-
`rsdp.rs`: the walk from the RSDP over the tables that the RSDT lists to the MADT, as a program
whose only operations are reads of bytes, calls of `map_page` and messages. A structure that is read
by value is a read of each of its bytes. `run` gives the operations their answers: a byte is what
the firmware left at the physical address, if a page is present there, `map_page` is the one of
`Paging`, and `length - size` in `u32` panics where it underflows.
-/
import Octagram.Lib.Trace
import Octagram.Memory.Paging

namespace Octagram.Acpi

open Octagram.Lib Octagram.Memory

/-- A byte of the firmware. -/
abbrev Byte := BitVec 8

/-- The little-endian number at an offset of a structure. -/
def leU32 (b : List Byte) (i : Nat) : BitVec 32 :=
  b.getD (i + 3) 0#8 ++ b.getD (i + 2) 0#8 ++ b.getD (i + 1) 0#8 ++ b.getD i 0#8

/-- The same of eight bytes. -/
def leU64 (b : List Byte) (i : Nat) : BitVec 64 := leU32 b (i + 4) ++ leU32 b i

/-- `RSDP`, of ACPI 1.0: 20 bytes, packed. -/
structure RSDP where
  signature : List Byte
  checksum : Byte
  oemid : List Byte
  revision : Byte
  rsdtAddress : BitVec 32

/-- The fields of an RSDP by their offsets: `repr(C, packed)`. -/
def RSDP.ofBytes (b : List Byte) : RSDP where
  signature := b.take 8
  checksum := b.getD 8 0#8
  oemid := (b.drop 9).take 6
  revision := b.getD 15 0#8
  rsdtAddress := leU32 b 16

/-- `SDTHeader`, with which each table starts: 36 bytes, packed. -/
structure SDTHeader where
  signature : List Byte
  length : BitVec 32
  revision : Byte
  checksum : Byte
  oemId : List Byte
  oemTableId : List Byte
  oemRevision : BitVec 32
  creatorId : BitVec 32
  creatorRevisioin : BitVec 32

/-- The fields of a header by their offsets. -/
def SDTHeader.ofBytes (b : List Byte) : SDTHeader where
  signature := b.take 4
  length := leU32 b 4
  revision := b.getD 8 0#8
  checksum := b.getD 9 0#8
  oemId := (b.drop 10).take 6
  oemTableId := (b.drop 16).take 8
  oemRevision := leU32 b 24
  creatorId := leU32 b 28
  creatorRevisioin := leU32 b 32

/-- The fields of a header, and `entries`, which the program takes for a pointer. -/
structure MADT extends SDTHeader where
  localApicAddress : BitVec 32
  flags : BitVec 32
  entries : BitVec 64

/-- The fields of an MADT; `entries` is the word after them. -/
def MADT.ofBytes (b : List Byte) : MADT where
  toSDTHeader := SDTHeader.ofBytes b
  localApicAddress := leU32 b 36
  flags := leU32 b 40
  entries := leU64 b 44

/-- The messages. -/
inductive Line
  | rsdpRevision (revision : BitVec 64)
  | rsdpAddress (ptr : BitVec 64)
  | rsdp (rsdp : RSDP)
  | table (i : Nat) (tableAddr : BitVec 32)
  | header (header : SDTHeader)
  | found
  | notFound
  | madt (madt : MADT)
  | entryType (b : Byte)
  | recordLength (b : Byte)

/-- The operations of the walk. `overflow` is a `u32` subtraction that underflows. -/
inductive Op
  | read (a : BitVec 64)
  | mapPage (virt phys flags : BitVec 64)
  | println (line : Line)
  | overflow

/-- What they answer. -/
def Ret : Op → Type
  | .read _ => Byte
  | .mapPage .. => Unit
  | .println _ => Unit
  | .overflow => Empty

/-- Programs over them. -/
abbrev Walk := Prog Op Ret

/-! ## The walk -/

/-- A byte at a virtual address. -/
def readByte (a : BitVec 64) : Walk Byte := Prog.call (Op.read a)

/-- The bytes of a structure, each read on its own. -/
def readBytes (a : BitVec 64) : Nat → Walk (List Byte)
  | 0 => pure []
  | n + 1 => do
    let b ← readByte a
    let bs ← readBytes (a + 1#64) n
    pure (b :: bs)

/-- A `u32`, least significant byte first. -/
def readU32 (a : BitVec 64) : Walk (BitVec 32) := do
  let bs ← readBytes a 4
  pure (leU32 bs 0)

/-- `println!` -/
def println (line : Line) : Walk Unit := Prog.call (Op.println line)

/-- `map_page`, whose result is dropped. -/
def callMapPage (virt phys : BitVec 64) : Walk Unit :=
  Prog.call (Op.mapPage virt phys (flags.WRITABLE ||| flags.PRESENT))

/-- `u32` subtraction, which panics on overflow. -/
def subU32 (a b : BitVec 32) : Walk (BitVec 32) :=
  if b.toNat ≤ a.toNat then pure (a - b) else do
    let e : Empty ← Prog.call Op.overflow
    e.elim

/-- `b"APIC"` -/
def apicSignature : List Byte := [0x41#8, 0x50#8, 0x49#8, 0x43#8]

/-- The loop of `find_MADT` from round `i` on, with `n` rounds to go. -/
def findFrom (entries : BitVec 64) : Nat → Nat → Walk (Option MADT)
  | _, 0 => do
    println .notFound
    pure none
  | i, n + 1 => do
    let tableAddr ← readU32 (entries + BitVec.ofNat 64 (4 * i))
    println (.table i tableAddr)
    let table := tableAddr.setWidth 64
    callMapPage table table
    let header ← readBytes table 36
    println (.header (SDTHeader.ofBytes header))
    let signature ← readBytes table 4
    if signature = apicSignature then
      println .found
      let madt ← readBytes table 52
      pure (some (MADT.ofBytes madt))
    else
      findFrom entries (i + 1) n

/-- `find_MADT` -/
def findMADT (rsdtAddr : BitVec 64) : Walk (Option MADT) := do
  let length ← readU32 (rsdtAddr + 4#64)
  let size := 36#32
  let count := (← subU32 length size) / 4#32
  let entries := rsdtAddr + size.setWidth 64
  findFrom entries 0 count.toNat

/-- The response to `RSDP_REQUEST`, and the HHDM offset. -/
structure RsdpResponse where
  revision : BitVec 64
  address : BitVec 64

/-- `test_rsdp` -/
def testRsdp : Option RsdpResponse → Walk Unit
  | none => pure ()
  | some response => do
    println (.rsdpRevision response.revision)
    let ptr := response.address
    println (.rsdpAddress ptr)
    callMapPage ptr ptr
    let rsdp ← readBytes ptr 20
    println (.rsdp (RSDP.ofBytes rsdp))
    let virt ← readU32 (ptr + 16#64)
    let phys ← readU32 (ptr + 16#64)
    callMapPage (virt.setWidth 64) (phys.setWidth 64)
    let rsdtAddress ← readU32 (ptr + 16#64)
    match ← findMADT (rsdtAddress.setWidth 64) with
    | none => pure ()
    | some madt =>
      println (.madt madt)
      callMapPage madt.entries madt.entries
      let entryType ← readByte madt.entries
      println (.entryType entryType)
      let recordLength ← readByte (madt.entries + 1#64)
      println (.recordLength recordLength)

/-! ## The machine that it runs on -/

/-- An access to a byte, and whether its page was present. -/
structure Access where
  address : BitVec 64
  present : Bool

/-- The page tables and the frame allocator, and what the walk has done so far. -/
structure World where
  mem : Mem
  results : List (Except PagingError Unit)
  accesses : List Access
  output : List Line

/-- How a run ends: with a result, with a panic, or with an access to a page that is not present. -/
inductive Outcome
  | returned
  | pageFault
  | panic (message : String)
  deriving DecidableEq

/-- Bits 47 to 63 are equal. -/
def canonical (v : BitVec 64) : Bool := v.toNat < 2 ^ 47 ∨ 2 ^ 64 - 2 ^ 47 ≤ v.toNat

/-- The processor finds a page at the address, of whatever size. -/
def present (s : Mem) (v : BitVec 64) : Bool :=
  canonical v && match (Memory.translate v).exec s with
    | .ok (.ok _, _) => true
    | .ok (.error .hugePageInPath, _) => true
    | _ => false

/-- A run of a walk; `firmware` is what lies at the addresses, which no call of `map_page` changes. -/
def run {α : Type} (firmware : BitVec 64 → Byte) : Walk α → World → Outcome × World
  | .ret _, w => (.returned, w)
  | .op (.read a) k, w =>
    let w' := { w with accesses := w.accesses ++ [⟨a, present w.mem a⟩] }
    if present w.mem a then run firmware (k (firmware a)) w' else (.pageFault, w')
  | .op (.mapPage virt phys fl) k, w =>
    match (mapPage virt phys fl).exec w.mem with
    | .ok (r, mem) => run firmware (k ()) { w with mem := mem, results := w.results ++ [r] }
    | .error message => (.panic message, w)
  | .op (.println line) k, w => run firmware (k ()) { w with output := w.output ++ [line] }
  | .op .overflow _, w => (.panic "attempt to subtract with overflow", w)

end Octagram.Acpi
