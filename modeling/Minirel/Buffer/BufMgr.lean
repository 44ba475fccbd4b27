import Minirel.Buffer.Desc

/-!
# The buffer manager (`BufMgr`, `src/stage4/heapfile.C:701-1028`)

The pool owns `numBufs` frames: a descriptor table, the page frames, the hash
table and the clock hand. Page contents are of an arbitrary type `P`; the
heap-file layer instantiates it with its page images. The DB layer's pages
(`disk`) are part of the state, since write-backs change them and misses read
them.

Frame numbers are C++ `int`s. `readPage` can go on with `frameNo = -1` (see
`readPage`), and the hash table then maps a page to `-1`. The descriptor
`bufTable[-1]` that the program then writes and reads is the field
`belowTable` (`descAt`, `setDescAt`), so `unPinPage` of that page sees the pin
`readPage` set there. Page bytes written to `bufPool[-1]` are dropped (`updAt`).
-/
namespace Minirel

/-- `g` with the entry at the C++ index `i` replaced; a negative index touches nothing. -/
def updAt {α : Type} (g : Nat → α) (i : Int) (a : α) : Nat → α :=
  fun j => if (j : Int) = i then a else g j

@[simp] theorem updAt_natCast {α : Type} (g : Nat → α) (i : Nat) (a : α) :
    updAt g i a = Function.update g i a := by
  funext j; simp [updAt, Function.update, Int.ofNat_inj]

structure BufMgr (P : Type) where
  numBufs : Nat
  bufTable : Nat → BufDesc
  /-- `bufTable[-1]`, the memory just below the table; only the `frameNo = -1`
  path of `readPage` reaches it, and it writes the slot before any call reads it. -/
  belowTable : BufDesc
  bufPool : Nat → P
  hashTable : BufHashTbl
  clockHand : Nat
  disk : Key → P

namespace BufMgr

variable {P : Type}

/-- mirrors heapfile.C:701-718. The hash table's bucket count only matters to
`bufHash.C`; the map it implements starts empty. -/
def init [Inhabited P] (bufs : Nat) (disk : Key → P) : BufMgr P :=
  { numBufs := bufs, bufTable := fun _ => BufDesc.zero, belowTable := BufDesc.zero,
    bufPool := fun _ => default, hashTable := .empty, clockHand := bufs - 1, disk }

/-- Modelled from the spec: `advanceClock()` (in `buf.h`) moves the hand to the
next frame "circularly" (§4.2). -/
def advanceClock (s : BufMgr P) : BufMgr P :=
  { s with clockHand := (s.clockHand + 1) % s.numBufs }

def setDesc (s : BufMgr P) (i : Nat) (d : BufDesc) : BufMgr P :=
  { s with bufTable := Function.update s.bufTable i d }

/-- `bufTable[frameNo]` for a frame number from the hash table; the only
negative one it can hold is `-1`. -/
def descAt (s : BufMgr P) : Int → BufDesc
  | .ofNat i => s.bufTable i
  | .negSucc _ => s.belowTable

/-- `bufTable[frameNo] = d`. -/
def setDescAt (s : BufMgr P) : Int → BufDesc → BufMgr P
  | .ofNat i, d => s.setDesc i d
  | .negSucc _, d => { s with belowTable := d }

/-- `tmpbuf->file->writePage(tmpbuf->pageNo, &bufPool[i])`: on success the
frame's bytes become the disk page. -/
def writeBack (io : FileAnswers) (s : BufMgr P) (i : Nat) : Except Status (BufMgr P) :=
  match io.writePage (s.bufTable i).key with
  | .OK => .ok { s with disk := Function.update s.disk (s.bufTable i).key (s.bufPool i) }
  | e => .error e

/-- `if (tmpbuf->dirty) writePage(...)` for the frame under the hand. -/
def victimWrite (io : FileAnswers) (s : BufMgr P) : Except Status (BufMgr P) :=
  if (s.bufTable s.clockHand).dirty then s.writeBack io s.clockHand else .ok s

/-- The victim branch of `allocBuf` (heapfile.C:789-806) at the clock hand. -/
def evict (io : FileAnswers) (s : BufMgr P) : Except Status Nat × BufMgr P :=
  match s.victimWrite io with
  | .error _ => (.error .UNIXERR, s)
  | .ok s1 =>
    match s1.hashTable.remove (s.bufTable s.clockHand).key with
    | .error _ => (.error .HASHTBLERROR, s1)
    | .ok h => (.ok s.clockHand, { s1 with hashTable := h }.setDesc s.clockHand .clear)

/-- The `for` loop of `allocBuf` with `n` iterations left. -/
def allocBufLoop (io : FileAnswers) : Nat → BufMgr P → Except Status Nat × BufMgr P
  | 0, s => (.error .BUFFEREXCEEDED, s)
  | n + 1, s =>
    let d := s.bufTable s.clockHand
    if d.valid = false then (.ok s.clockHand, s.advanceClock)
    else if d.refbit then
      allocBufLoop io n (s.setDesc s.clockHand { d with refbit := false }).advanceClock
    else if d.pinCnt = 0 then s.evict io
    else allocBufLoop io n s.advanceClock

/-- mirrors heapfile.C:770-811. On success the chosen frame is invalid; only the
invalid-frame branch advances the hand. -/
def allocBuf (io : FileAnswers) (s : BufMgr P) : Except Status Nat × BufMgr P :=
  allocBufLoop io (s.numBufs * 2) s

/-- The miss path of `readPage` after `allocBuf` (heapfile.C:849-862). -/
def readInto (io : FileAnswers) (s : BufMgr P) (file : FileId) (PageNo frameNo : Int) :
    Except Status Int × BufMgr P :=
  match io.readPage (some file, PageNo) with
  | .OK =>
    let s1 := { s with bufPool := updAt s.bufPool frameNo (s.disk (some file, PageNo)) }
    match s1.hashTable.insert (some file, PageNo) frameNo with
    | .error _ => (.error .HASHTBLERROR, s1)
    | .ok h => (.ok frameNo, { s1 with hashTable := h }.setDescAt frameNo (.set file PageNo))
  | _ => (.error .UNIXERR, s)

/-- A frame allocator: `allocBuf`, or the spec's clock. -/
abbrev Alloc (P : Type) := FileAnswers → BufMgr P → Except Status Nat × BufMgr P

/-- mirrors heapfile.C:839-870, with the frame allocator it calls as a parameter;
returns the frame the page pointer points into. Only BUFFEREXCEEDED from the
allocator stops the miss path: after UNIXERR or HASHTBLERROR the code reads, maps
and `Set`s the frame `frameNo = -1`. -/
def readPageWith (alloc : Alloc P) (io : FileAnswers) (s : BufMgr P) (file : FileId) (PageNo : Int) :
    Except Status Int × BufMgr P :=
  match s.hashTable.lookup (some file, PageNo) with
  | .ok frameNo =>
    let d := s.descAt frameNo
    (.ok frameNo, s.setDescAt frameNo { d with refbit := true, pinCnt := d.pinCnt + 1 })
  | .error _ =>
    match alloc io s with
    | (.error .BUFFEREXCEEDED, s1) => (.error .BUFFEREXCEEDED, s1)
    | (.ok i, s1) => readInto io s1 file PageNo i
    | (.error _, s1) => readInto io s1 file PageNo (-1)

def readPage (io : FileAnswers) (s : BufMgr P) (file : FileId) (PageNo : Int) :
    Except Status Int × BufMgr P :=
  readPageWith allocBuf io s file PageNo

/-- mirrors heapfile.C:890-906 -/
def unPinPage (s : BufMgr P) (file : FileId) (PageNo : Int) (dirty : Bool) : Status × BufMgr P :=
  match s.hashTable.lookup (some file, PageNo) with
  | .error _ => (.HASHNOTFOUND, s)
  | .ok frameNo =>
    let d := s.descAt frameNo
    if d.pinCnt = 0 then (.PAGENOTPINNED, s)
    else (.OK, s.setDescAt frameNo { d with pinCnt := d.pinCnt - 1, dirty := d.dirty || dirty })

/-- mirrors heapfile.C:930-951, with the frame allocator as a parameter; returns
the new page number and frame. -/
def allocPageWith (alloc : Alloc P) (io : FileAnswers) (s : BufMgr P) (file : FileId) :
    Except Status (Int × Nat) × BufMgr P :=
  match io.allocatePage file with
  | (.OK, pageNo) =>
    match alloc io s with
    | (.error e, s1) => (.error e, s1)
    | (.ok frameNo, s1) =>
      match s1.hashTable.insert (some file, pageNo) frameNo with
      | .error e => (.error e, s1)
      | .ok h => (.ok (pageNo, frameNo), { s1 with hashTable := h }.setDesc frameNo (.set file pageNo))
  | (e, _) => (.error e, s)

def allocPage (io : FileAnswers) (s : BufMgr P) (file : FileId) : Except Status (Int × Nat) × BufMgr P :=
  allocPageWith allocBuf io s file

/-- mirrors heapfile.C:967-980 -/
def disposePage (io : FileAnswers) (s : BufMgr P) (file : FileId) (pageNo : Int) : Status × BufMgr P :=
  let s1 := match s.hashTable.lookup (some file, pageNo) with
    | .ok frameNo => s.setDescAt frameNo .clear
    | .error _ => s
  let s2 := match s1.hashTable.remove (some file, pageNo) with
    | .ok h => { s1 with hashTable := h }
    | .error _ => s1
  (io.disposePage (some file, pageNo), s2)

/-- What `flushFile` does to a written-back frame `i` of `file` (heapfile.C:1013-1020):
clean, drop the hash entry (its status is ignored), NULL file, page -1, invalid. -/
def dropFrame (s : BufMgr P) (i : Nat) (file : FileId) : BufMgr P :=
  let d := s.bufTable i
  { s with
    hashTable := match s.hashTable.remove (some file, d.pageNo) with
      | .ok h => h
      | .error _ => s.hashTable
    bufTable := Function.update s.bufTable i
      { d with dirty := false, file := none, pageNo := -1, valid := false } }

/-- The loop of `flushFile` over the frames `is`. -/
def flushFrames (io : FileAnswers) (file : FileId) : List Nat → BufMgr P → Status × BufMgr P
  | [], s => (.OK, s)
  | i :: is, s =>
    let d := s.bufTable i
    if d.valid = true ∧ d.file = some file then
      if 0 < d.pinCnt then (.PAGEPINNED, s)
      else
        match (if d.dirty then s.writeBack io i else .ok s) with
        | .error e => (e, s)
        | .ok s1 => flushFrames io file is (s1.dropFrame i file)
    else if d.valid = false ∧ d.file = some file then (.BADBUFFER, s)
    else flushFrames io file is s

/-- mirrors heapfile.C:999-1028 -/
def flushFile (io : FileAnswers) (s : BufMgr P) (file : FileId) : Status × BufMgr P :=
  flushFrames io file (List.range s.numBufs) s

/-- The loop of `~BufMgr` over the frames `is`; write errors are swallowed. -/
def destructorFrames (io : FileAnswers) : List Nat → BufMgr P → BufMgr P
  | [], s => s
  | i :: is, s =>
    let d := s.bufTable i
    destructorFrames io is
      (if d.valid ∧ d.dirty then (match s.writeBack io i with | .ok s1 => s1 | .error _ => s) else s)

/-- mirrors heapfile.C:730-745 -/
def destructor (io : FileAnswers) (s : BufMgr P) : BufMgr P :=
  destructorFrames io (List.range s.numBufs) s

/-- A call a client makes on the pool. -/
inductive Call where
  | readPage (file : FileId) (pageNo : Int)
  | unPinPage (file : FileId) (pageNo : Int) (dirty : Bool)
  | allocPage (file : FileId)
  | disposePage (file : FileId) (pageNo : Int)
  | flushFile (file : FileId)
  deriving DecidableEq, Repr

/-- The status of a call whose C++ version returns a status and out-parameters. -/
def statusOf {α : Type} : Except Status α → Status
  | .ok _ => .OK
  | .error e => e

/-- Results of calls, compared by `decide` in the runs of later modules. -/
instance {ε α : Type} [DecidableEq ε] [DecidableEq α] : DecidableEq (Except ε α)
  | .ok a, .ok b => decidable_of_iff (a = b) ⟨congrArg _, Except.ok.inj⟩
  | .error a, .error b => decidable_of_iff (a = b) ⟨congrArg _, Except.error.inj⟩
  | .ok _, .error _ => isFalse fun h => Except.noConfusion h
  | .error _, .ok _ => isFalse fun h => Except.noConfusion h

/-- The status a call returns and the state it leaves, with frame allocator `alloc`. -/
def Call.runWith (alloc : Alloc P) (io : FileAnswers) (s : BufMgr P) : Call → Status × BufMgr P
  | .readPage f p => (statusOf (s.readPageWith alloc io f p).1, (s.readPageWith alloc io f p).2)
  | .unPinPage f p d => s.unPinPage f p d
  | .allocPage f => (statusOf (s.allocPageWith alloc io f).1, (s.allocPageWith alloc io f).2)
  | .disposePage f p => s.disposePage io f p
  | .flushFile f => s.flushFile io f

/-- The status a call returns and the state it leaves. -/
def Call.run (io : FileAnswers) (s : BufMgr P) (c : Call) : Status × BufMgr P :=
  c.runWith allocBuf io s

/-- The pool as a state machine: built with at least one frame, then any call,
with any answers of the DB layer. -/
def lts (P : Type) [Inhabited P] : LTS (BufMgr P) (FileAnswers × Call) where
  init s := ∃ n disk, 0 < n ∧ s = init n disk
  step s l s' := s' = (l.2.run l.1 s).2

/-! ## Field lemmas -/

section Fields

variable (s : BufMgr P)

@[simp] theorem advanceClock_numBufs : s.advanceClock.numBufs = s.numBufs := rfl
@[simp] theorem advanceClock_bufTable : s.advanceClock.bufTable = s.bufTable := rfl
@[simp] theorem advanceClock_bufPool : s.advanceClock.bufPool = s.bufPool := rfl
@[simp] theorem advanceClock_hashTable : s.advanceClock.hashTable = s.hashTable := rfl
@[simp] theorem advanceClock_disk : s.advanceClock.disk = s.disk := rfl
@[simp] theorem advanceClock_clockHand :
    s.advanceClock.clockHand = (s.clockHand + 1) % s.numBufs := rfl

variable (i : Nat) (d : BufDesc)

@[simp] theorem setDesc_numBufs : (s.setDesc i d).numBufs = s.numBufs := rfl
@[simp] theorem setDesc_bufTable : (s.setDesc i d).bufTable = Function.update s.bufTable i d := rfl
@[simp] theorem setDesc_bufPool : (s.setDesc i d).bufPool = s.bufPool := rfl
@[simp] theorem setDesc_hashTable : (s.setDesc i d).hashTable = s.hashTable := rfl
@[simp] theorem setDesc_disk : (s.setDesc i d).disk = s.disk := rfl
@[simp] theorem setDesc_clockHand : (s.setDesc i d).clockHand = s.clockHand := rfl
@[simp] theorem setDesc_belowTable : (s.setDesc i d).belowTable = s.belowTable := rfl

@[simp] theorem descAt_natCast : s.descAt i = s.bufTable i := rfl
@[simp] theorem setDescAt_natCast : s.setDescAt i d = s.setDesc i d := rfl
@[simp] theorem descAt_neg_one : s.descAt (-1) = s.belowTable := rfl
@[simp] theorem setDescAt_neg_one : s.setDescAt (-1) d = { s with belowTable := d } := rfl

variable (j : Int)

@[simp] theorem setDescAt_hashTable : (s.setDescAt j d).hashTable = s.hashTable := by cases j <;> rfl
@[simp] theorem setDescAt_bufPool : (s.setDescAt j d).bufPool = s.bufPool := by cases j <;> rfl

end Fields

theorem writeBack_eq_ok {io : FileAnswers} {s t : BufMgr P} {i : Nat} :
    s.writeBack io i = .ok t ↔ io.writePage (s.bufTable i).key = .OK ∧
      t = { s with disk := Function.update s.disk (s.bufTable i).key (s.bufPool i) } := by
  unfold writeBack; split <;> simp_all [Eq.comm (a := t)]

end BufMgr

end Minirel
