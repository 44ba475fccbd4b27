import Minirel.Heap.HeapFile

/-!
# Filtered scans (`src/stage4/heapfile.C:260-484`)

A `HeapFileScan` is a `HeapFile` handle with a predicate. `scanNext` walks the
current page's records with `firstRecord`/`nextRecord`; at the end of a page it
unpins it, reads the next page of the chain and goes on, inside one call, until
a record matches (OK) or the chain ends (FILEEOF: `curPage` NULL and
`curPageNo` -1). The loop `while (true)` is `scanLoop` with an iteration bound:
`none` means the bound ran out.

`matchRec` compares `length` bytes at `offset` of the record with the filter's
bytes and applies the operator to the sign of `float diff`:

* INTEGER: both are copied into an `int` (`memcpy`, little-endian) and
  subtracted as `int`, which wraps modulo 2^32 here (the overflow the C++ leaves
  undefined); the conversion to `float` keeps the sign;
* FLOAT: both are copied into a `float` and subtracted. The sign of an IEEE
  single-precision difference is that of the exact difference of its operands
  (gradual underflow: it is zero only for equal operands), with NaN for a NaN
  operand or for `inf − inf`;
* STRING: `strncmp` over `length` bytes, unsigned, stopping at a NUL.

A NaN `diff` fails every comparison but `!=`. The guard before the comparison,
`offset + length - 1 >= rec.length`, is `int` arithmetic too and wraps the same
way (`tooShort`).

The constructor leaves `offset`, `length`, `type`, `op`, `markedPageNo` and
`markedRec` uninitialized; the model starts them at `0, 0, STRING, EQ, -1,
NULLRID`.
-/
namespace Minirel

inductive Datatype where
  | STRING | INTEGER | FLOAT
  deriving DecidableEq, Repr

inductive Operator where
  | LT | LTE | EQ | GTE | GT | NE
  deriving DecidableEq, Repr

/-- The sign of `float diff`, NaN included. -/
inductive Sign where
  | neg | zero | pos | nan
  deriving DecidableEq, Repr

def Sign.ofInt (d : Int) : Sign := if d < 0 then .neg else if d = 0 then .zero else .pos

/-- The `switch (op)` of `matchRec` (heapfile.C:520-539): does `diff op 0.0` hold? -/
def Operator.holds : Operator → Sign → Bool
  | .LT, s => s == .neg
  | .LTE, s => s == .neg || s == .zero
  | .EQ, s => s == .zero
  | .GTE, s => s == .zero || s == .pos
  | .GT, s => s == .pos
  | .NE, s => s != .zero

/-- Four bytes as an unsigned little-endian word; bytes past the end read as 0. -/
def le32 (b : List UInt8) : Nat :=
  (b.getD 0 0).toNat + 256 * (b.getD 1 0).toNat + 65536 * (b.getD 2 0).toNat +
    16777216 * (b.getD 3 0).toNat

/-- `memcpy` into an `int`: the word in two's complement. -/
def int32 (b : List UInt8) : Int := Int.bmod (le32 b) (2 ^ 32)

/-- An IEEE single: NaN, an infinity (`true` for -inf), or the finite value `m · 2^-149`. -/
inductive F32 where
  | nan
  | inf (neg : Bool)
  | fin (m : Int)

/-- `memcpy` into a `float`: sign bit, 8 exponent bits, 23 fraction bits. -/
def F32.ofBits (w : Nat) : F32 :=
  let e : Nat := w / 2 ^ 23 % 256
  let f : Nat := w % 2 ^ 23
  let neg := w / 2 ^ 31 % 2 = 1
  if e = 255 then (if f = 0 then .inf neg else .nan)
  else
    let mag : Nat := if e = 0 then f else (2 ^ 23 + f) * 2 ^ (e - 1)
    .fin (if neg then -(mag : Int) else mag)

/-- The sign of the IEEE difference `x - y`. -/
def F32.subSign : F32 → F32 → Sign
  | .nan, _ => .nan
  | _, .nan => .nan
  | .inf n, .inf m => if n = m then .nan else if n then .neg else .pos
  | .inf n, .fin _ => if n then .neg else .pos
  | .fin _, .inf m => if m then .pos else .neg
  | .fin x, .fin y => Sign.ofInt (x - y)

/-- `strncmp(a, b, n)` over `unsigned char`s; bytes past the end read as NUL. -/
def strncmp : List UInt8 → List UInt8 → Nat → Sign
  | _, _, 0 => .zero
  | a, b, n + 1 =>
    let x := a.headD 0
    let y := b.headD 0
    if x < y then .neg else if y < x then .pos
    else if x = 0 then .zero else strncmp a.tail b.tail n

/-- `diff` of `matchRec` (heapfile.C:500-518) for the field bytes `a`, the
filter bytes `b` and `length`. -/
def fieldDiff (type : Datatype) (a b : List UInt8) (length : Nat) : Sign :=
  match type with
  | .INTEGER => Sign.ofInt (Int.bmod (int32 (a.take length) - int32 (b.take length)) (2 ^ 32))
  | .FLOAT => (F32.ofBits (le32 (a.take length))).subSign (F32.ofBits (le32 (b.take length)))
  | .STRING => strncmp a b length

/-- The members of a `HeapFileScan`. `filter` is the bytes the filter pointer
points to, `none` for NULL. -/
structure HeapFileScan extends HeapFile where
  offset : Int
  length : Int
  type : Datatype
  filter : Option (List UInt8)
  op : Operator
  markedPageNo : Int
  markedRec : RID
  deriving DecidableEq, Repr

namespace HeapFileScan

/-- The guard of `matchRec` (heapfile.C:498), `offset + length - 1 >= rec.length`,
in `int` arithmetic: the sum wraps modulo 2^32 like the subtraction below. -/
def tooShort (s : HeapFileScan) (rec : Record) : Bool :=
  decide ((rec.length : Int) ≤ Int.bmod (s.offset + s.length - 1) (2 ^ 32))

/-- mirrors heapfile.C:491-540 (`HeapFileScan::matchRec`) -/
def matchRec (s : HeapFileScan) (rec : Record) : Bool :=
  match s.filter with
  | none => true
  | some flt =>
    if s.tooShort rec then false
    else s.op.holds (fieldDiff s.type (rec.data.drop s.offset.toNat) flt s.length.toNat)

/-- mirrors heapfile.C:260-262 (`HeapFileScan::HeapFileScan`) -/
def new (w : World) (name : String) : Status × HeapFileScan × World :=
  let (st, h, w1) := HeapFile.new w name
  (st,
    { h with
      offset := 0
      length := 0
      type := .STRING
      filter := none
      op := .EQ
      markedPageNo := -1
      markedRec := NULLRID }, w1)

/-- The parameters `startScan` accepts with a filter (heapfile.C:281-285);
`sizeof(int) = sizeof(float) = 4`. -/
def ScanParmOk (offset length : Int) (type : Datatype) : Prop :=
  0 ≤ offset ∧ 1 ≤ length ∧ (type = .INTEGER → length = 4) ∧ (type = .FLOAT → length = 4)

instance (offset length : Int) (type : Datatype) : Decidable (ScanParmOk offset length type) :=
  inferInstanceAs (Decidable (_ ∧ _))

/-- mirrors heapfile.C:274-295 (`HeapFileScan::startScan`) -/
def startScan (s : HeapFileScan) (offset length : Int) (type : Datatype) (filter : Option (List UInt8))
    (op : Operator) : Status × HeapFileScan :=
  match filter with
  | none => (.OK, { s with filter := none })
  | some flt =>
    if ScanParmOk offset length type then
      (.OK, { s with offset, length, type, filter := some flt, op })
    else (.BADSCANPARM, s)

/-- `startScan` sets the predicate and nothing else. -/
theorem startScan_toHeapFile (s : HeapFileScan) (offset length : Int) (type : Datatype)
    (filter : Option (List UInt8)) (op : Operator) :
    (s.startScan offset length type filter op).2.toHeapFile = s.toHeapFile := by
  unfold startScan; split
  · rfl
  · split <;> rfl

/-- `startScan` accepts no filter, and a filter whose parameters are valid. -/
theorem startScan_ok (s : HeapFileScan) {offset length : Int} {type : Datatype} {filter : Option (List UInt8)}
    (op : Operator) (h : filter = none ∨ ScanParmOk offset length type) :
    (s.startScan offset length type filter op).1 = .OK := by
  rcases h with rfl | h
  · rfl
  · unfold startScan; split
    · rfl
    · rw [if_pos h]

/-- The predicate the arguments of `startScan` describe: what `matchRec`
computes on a scan whose members `offset`, `length`, `type`, `filter` and `op`
are these. With no filter it accepts every record. -/
def selects (offset length : Int) (type : Datatype) (filter : Option (List UInt8)) (op : Operator) :
    Record → Bool :=
  matchRec { HeapFile.initial with offset, length, type, filter, op, markedPageNo := -1, markedRec := NULLRID }

/-- `matchRec` reads the five predicate members and nothing else. -/
theorem matchRec_eq_selects (s : HeapFileScan) : s.matchRec = selects s.offset s.length s.type s.filter s.op :=
  rfl

@[simp] theorem selects_none (offset length : Int) (type : Datatype) (op : Operator) :
    selects offset length type none op = fun _ => true :=
  rfl

example : selects 0 1 .STRING (some [2]) .EQ ⟨[1]⟩ = false ∧ selects 0 1 .STRING (some [2]) .EQ ⟨[2]⟩ = true := by
  decide

/-- When `startScan` returns OK, the scan's predicate is the one its arguments
describe, whatever the scan's predicate was before. -/
theorem startScan_matchRec (s : HeapFileScan) {offset length : Int} {type : Datatype}
    {filter : Option (List UInt8)} {op : Operator} (h : (s.startScan offset length type filter op).1 = .OK) :
    (s.startScan offset length type filter op).2.matchRec = selects offset length type filter op := by
  unfold startScan at h ⊢
  cases filter with
  | none => rfl
  | some flt =>
    by_cases hp : ScanParmOk offset length type
    · simp only [if_pos hp]; rfl
    · simp only [if_neg hp] at h; cases h

/-- mirrors heapfile.C:302-313 (`HeapFileScan::endScan`) -/
def endScan (s : HeapFileScan) (w : World) : Status × HeapFileScan × World :=
  match s.curPage with
  | some _ =>
    let (st, w1) := w.unPinPage s.filePtr s.curPageNo s.curDirtyFlag
    (st, { s with curPage := none, curPageNo := 0, curDirtyFlag := false }, w1)
  | none => (.OK, s, w)

/-- mirrors heapfile.C:319-321 (`HeapFileScan::~HeapFileScan`), followed by the
base destructor. -/
def destructor (s : HeapFileScan) (w : World) : World :=
  let (_, s1, w1) := s.endScan w
  s1.toHeapFile.destructor w1

/-- mirrors heapfile.C:328-333 -/
def markScan (s : HeapFileScan) : HeapFileScan :=
  { s with markedPageNo := s.curPageNo, markedRec := s.curRec }

/-- mirrors heapfile.C:340-357 (`HeapFileScan::resetScan`) -/
def resetScan (s : HeapFileScan) (w : World) : Status × HeapFileScan × World :=
  if s.markedPageNo ≠ s.curPageNo then
    match (match s.curPage with
        | some _ => w.unPinPage s.filePtr s.curPageNo s.curDirtyFlag
        | none => (.OK, w)) with
    | (.OK, w1) =>
      let s := { s with curPageNo := s.markedPageNo, curRec := s.markedRec }
      match w1.readPage s.filePtr s.curPageNo with
      | (.ok cp, w2) => (.OK, { s with curPage := some cp, curDirtyFlag := false }, w2)
      | (.error e, w2) => (e, s, w2)
    | (e, w1) => (e, s, w1)
  else (.OK, { s with curRec := s.markedRec }, w)

/-- The scan before the first record of page `pageNo`, pinned in frame `cp`
(heapfile.C:384-390, 416-423). -/
def atPage (s : HeapFileScan) (cp pageNo : Int) : HeapFileScan :=
  { s with curPage := some cp, curPageNo := pageNo, curDirtyFlag := false, curRec := NULLRID }

/-- One iteration of the loop of `scanNext` (heapfile.C:393-440) looks at the
current page; the RID the page hands out, or the end of the page. -/
def nextRid (s : HeapFileScan) (w : World) : Except Status RID :=
  if s.curRec = NULLRID then (s.page w).firstRecord else (s.page w).nextRecord s.curRec

/-- Where the walk over the current page stands: the slot of `curRec`, 0 before
the first record. -/
def slotPos (s : HeapFileScan) : Int := if s.curRec = NULLRID then 0 else s.curRec.slotNo

/-- Both branches of `nextRid` ask the page for its first live slot after `slotPos`. -/
theorem nextRid_eq (s : HeapFileScan) (w : World) :
    s.nextRid w = match DataPage.nextLive (s.page w).slots 1 s.slotPos with
      | some n => .ok ⟨(s.page w).curPage, n⟩
      | none => .error (if s.curRec = NULLRID then .NORECORDS else .ENDOFPAGE) := by
  unfold nextRid slotPos DataPage.firstRecord DataPage.nextRecord
  split <;> rfl

/-- The `while (true)` loop of `scanNext` (heapfile.C:393-440) with at most `n`
iterations left; `none` when they run out. -/
def scanLoop : Nat → HeapFileScan → World → Option (Except Status RID × HeapFileScan × World)
  | 0, _, _ => none
  | n + 1, s, w =>
    match s.nextRid w with
    | .error .ENDOFPAGE | .error .NORECORDS =>
      let nextPageNo := (s.page w).nextPage
      match w.unPinPage s.filePtr s.curPageNo s.curDirtyFlag with
      | (.OK, w1) =>
        let s := { s with curPage := none }
        if nextPageNo = -1 then some (.error .FILEEOF, { s with curPageNo := -1, curRec := NULLRID }, w1)
        else
          match w1.readPage s.filePtr nextPageNo with
          | (.ok cp, w2) =>
            scanLoop n (s.atPage cp nextPageNo) w2
          | (.error e, w2) => some (.error e, s, w2)
      | (e, w1) => some (.error e, s, w1)
    | .error e => some (.error e, s, w)
    | .ok rid =>
      let s := { s with curRec := rid }
      match (s.page w).getRecord rid with
      | .error e => some (.error e, s, w)
      | .ok rec => if s.matchRec rec then some (.ok rid, s, w) else scanLoop n s w

/-- mirrors heapfile.C:375-444 (`HeapFileScan::scanNext`), with at most `n`
iterations of its loop; returns `outRid`. -/
def scanNext (n : Nat) (s : HeapFileScan) (w : World) : Option (Except Status RID × HeapFileScan × World) :=
  match s.curPage with
  | none =>
    if s.curPageNo = -1 then some (.error .FILEEOF, s, w)
    else
      match w.readPage s.filePtr (s.hdr w).firstPage with
      | (.ok cp, w1) =>
        scanLoop n (s.atPage cp (s.hdr w).firstPage) w1
      | (.error e, w1) => some (.error e, s, w1)
  | some _ => scanLoop n s w

/-- mirrors heapfile.C:451-454 (`HeapFileScan::getRecord`) -/
def getRecord (s : HeapFileScan) (w : World) : Except Status Record :=
  if s.curPage.isNone ∨ s.curRec.pageNo ≠ s.curPageNo then .error .BADPAGENO
  else (s.page w).getRecord s.curRec

/-- mirrors heapfile.C:461-473 (`HeapFileScan::deleteRecord`) -/
def deleteRecord (s : HeapFileScan) (w : World) : Status × HeapFileScan × World :=
  match (s.page w).deleteRecord s.curRec with
  | .ok p =>
    let w1 := s.setPage w p
    let s := { s with curDirtyFlag := true, hdrDirtyFlag := true }
    (.OK, s, s.setHdr w1 { s.hdr w1 with recCnt := (s.hdr w1).recCnt - 1 })
  | .error e => (e, s, w)

/-- mirrors heapfile.C:480-483 -/
def markDirty (s : HeapFileScan) : HeapFileScan := { s with curDirtyFlag := true }

end HeapFileScan

/-- `twoPageWorld` with the record on page 2 changed to `(2)`: the filter `= (2)`
on the first byte accepts it and rejects the record `(1)` on page 1. -/
def twoRecordWorld : World :=
  { twoPageWorld with
    pool := BufMgr.init 3 fun k => if k = (some 0, 2) then .data ⟨2, -1, [some ⟨[2]⟩]⟩ else twoPageWorld.pool.disk k }

end Minirel
