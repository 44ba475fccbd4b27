import Minirel.Buffer.Content
import Minirel.Heap.Page

/-!
# The heap file's world: the buffer pool and the DB layer

The heap-file code of `src/stage4/heapfile.C` calls two globals, `bufMgr` and
`db`. `World` holds both:

* `pool`: the buffer manager of `Minirel.Buffer`, over page images `Img`;
* `db`: the DB layer's files (`db.C`, not in the repository, modelled from the
  spec §2 "file provider"): the file of each name, and per file the page number
  `allocatePage` hands out next and the page `getFirstPage` reports;
* `io`: the statuses the DB layer answers to page reads, writes and
  allocations, as in the buffer-manager model.

A page pointer the heap file keeps (`headerPage`, `curPage`) is a frame index
of the pool, as `readPage` and `allocPage` return it; the heap file reads and
writes the frame's bytes through it. An index outside the pool (the `-1` of
`readPage`'s failed miss path, or a NULL pointer) reads as unformatted bytes
and ignores writes, as `updAt` does to the pool's page bytes.

A pool call with a NULL `File*` (a handle whose file never opened): the pool's
lookup misses, so `unPinPage` answers HASHNOTFOUND; `readPage` and `allocPage`
would call through the NULL pointer, and here fail with BADFILE and change
nothing.
-/
namespace Minirel

/-- Modelled from the spec: the DB layer's files. -/
structure Db where
  files : String → Option FileId
  fresh : FileId
  next : FileId → Int
  first : FileId → Int

namespace Db

/-- `DB::openFile`: the file of that name; UNIXERR when there is none. -/
def openFile (d : Db) (name : String) : Except Status FileId :=
  match d.files name with
  | some f => .ok f
  | none => .error .UNIXERR

/-- `DB::createFile`: a new file without pages; FILEEXISTS when the name is taken. -/
def createFile (d : Db) (name : String) : Status × Db :=
  match d.files name with
  | some _ => (.FILEEXISTS, d)
  | none =>
    (.OK,
      { files := Function.update d.files name (some d.fresh)
        fresh := d.fresh + 1
        next := Function.update d.next d.fresh 1
        first := Function.update d.first d.fresh (-1) })

/-- `File::getFirstPage`: the first page allocated in the file. -/
def getFirstPage (d : Db) (f : FileId) : Int := d.first f

/-- The file's counters after `File::allocatePage` handed out `next f`. -/
def allocated (d : Db) (f : FileId) : Db :=
  { d with next := Function.update d.next f (d.next f + 1),
           first := Function.update d.first f (if d.first f = -1 then d.next f else d.first f) }

@[simp] theorem allocated_files (d : Db) (f : FileId) : (d.allocated f).files = d.files := rfl

@[simp] theorem allocated_next (d : Db) (f : FileId) : (d.allocated f).next f = d.next f + 1 := by
  simp [allocated]

/-- The first page allocated in a file becomes its first page. -/
theorem allocated_first_of_none (d : Db) (f : FileId) (h : d.first f = -1) :
    (d.allocated f).first f = d.next f := by
  simp [allocated, h]

/-- Once the file has a first page, allocating keeps it. -/
theorem allocated_first (d : Db) (f : FileId) (h : d.first f ≠ -1) : (d.allocated f).first f = d.first f := by
  simp [allocated, h]

end Db

structure World where
  pool : BufMgr Img
  db : Db
  io : FileAnswers

namespace World

/-- What the DB layer answers the pool: `allocatePage` hands out `db.next f`. -/
def answers (w : World) : FileAnswers :=
  { w.io with allocatePage := fun f => ((w.io.allocatePage f).1, w.db.next f) }

/-- `bufMgr->readPage(file, pageNo, page)`: the frame the page pointer points into. -/
def readPage (w : World) (file : Option FileId) (pageNo : Int) : Except Status Int × World :=
  match file with
  | some f =>
    let r := BufMgr.readPage w.io w.pool f pageNo
    (r.1, { w with pool := r.2 })
  | none => (.error .BADFILE, w)

/-- `bufMgr->unPinPage(file, pageNo, dirty)`. -/
def unPinPage (w : World) (file : Option FileId) (pageNo : Int) (dirty : Bool) : Status × World :=
  match file with
  | some f =>
    let r := BufMgr.unPinPage w.pool f pageNo dirty
    (r.1, { w with pool := r.2 })
  | none => (.HASHNOTFOUND, w)

/-- `bufMgr->allocPage(file, pageNo, page)`: the new page's number and frame. -/
def allocPage (w : World) (file : Option FileId) : Except Status (Int × Nat) × World :=
  match file with
  | some f =>
    let r := BufMgr.allocPage w.answers w.pool f
    (r.1,
      { w with
        pool := r.2
        db := if (w.io.allocatePage f).1 = .OK then w.db.allocated f else w.db })
  | none => (.error .BADFILE, w)

/-- The bytes behind a page pointer. -/
def frame (w : World) (i : Int) : Img := if 0 ≤ i then w.pool.bufPool i.toNat else .raw

/-- Bytes written through a page pointer. -/
def setFrame (w : World) (i : Int) (img : Img) : World :=
  { w with pool := { w.pool with bufPool := updAt w.pool.bufPool i img } }

/-- Data page `q` of file `f` as the pool shows it to its clients (its logical bytes). -/
def dataPage (w : World) (f : FileId) (q : Int) : DataPage := (BufMgr.logical w.pool (some f, q)).toPage

/-- The header page of file `f` (the file's first page) as the pool shows it. -/
def header (w : World) (f : FileId) : HdrPage := (BufMgr.logical w.pool (some f, w.db.first f)).toHdr

/-! ## Field lemmas -/

section Fields

variable (w : World) (f : FileId) (p : Int) (d : Bool)

@[simp] theorem readPage_some : w.readPage (some f) p =
    ((BufMgr.readPage w.io w.pool f p).1, { w with pool := (BufMgr.readPage w.io w.pool f p).2 }) := rfl
@[simp] theorem unPinPage_some : w.unPinPage (some f) p d =
    ((BufMgr.unPinPage w.pool f p d).1, { w with pool := (BufMgr.unPinPage w.pool f p d).2 }) := rfl

variable (i j : Int) (img : Img)

@[simp] theorem setFrame_db : (w.setFrame i img).db = w.db := rfl
@[simp] theorem setFrame_io : (w.setFrame i img).io = w.io := rfl
@[simp] theorem setFrame_bufTable : (w.setFrame i img).pool.bufTable = w.pool.bufTable := rfl
@[simp] theorem setFrame_hashTable : (w.setFrame i img).pool.hashTable = w.pool.hashTable := rfl
@[simp] theorem setFrame_numBufs : (w.setFrame i img).pool.numBufs = w.pool.numBufs := rfl
@[simp] theorem setFrame_disk : (w.setFrame i img).pool.disk = w.pool.disk := rfl

theorem frame_setFrame : (w.setFrame i img).frame j = if j = i ∧ 0 ≤ i then img else w.frame j := by
  unfold frame setFrame updAt
  by_cases hj : 0 ≤ j
  · simp only [hj, if_true, Int.toNat_of_nonneg hj]
    by_cases hji : j = i
    · subst hji; simp [hj]
    · simp [hji]
  · have : ¬ (j = i ∧ 0 ≤ i) := fun h => hj (h.1 ▸ h.2)
    simp [hj, this]

@[simp] theorem frame_natCast (k : Nat) : w.frame k = w.pool.bufPool k := by
  unfold frame; rw [if_pos (by omega)]; rfl

end Fields

end World

/-! ## Runs of one file's calls -/

/-- A property of worlds that every call of a handle of file `f` keeps: a read,
an unpin or an allocation of a page of `f`, and a write through the frame of a
page of `f`. -/
structure FileClosed (f : FileId) (P : World → Prop) : Prop where
  readPage : ∀ w q, P w → P (w.readPage (some f) q).2
  unPinPage : ∀ w q d, P w → P (w.unPinPage (some f) q d).2
  allocPage : ∀ w, P w → P (w.allocPage (some f)).2
  setFrame : ∀ w q (j : Nat) b, w.pool.hashTable.find (some f, q) = some (j : Int) → P w → P (w.setFrame j b)

/-- `w'` follows `w` by calls of a handle of file `f`: every property those calls
keep goes from `w` to `w'`. -/
def FileCalls (f : FileId) (w w' : World) : Prop := ∀ P, FileClosed f P → P w → P w'

namespace FileCalls

variable {f : FileId} {w w₁ w₂ : World}

theorem refl (w : World) : FileCalls f w w := fun _ _ h => h

theorem trans (h₁ : FileCalls f w w₁) (h₂ : FileCalls f w₁ w₂) : FileCalls f w w₂ :=
  fun P hP h => h₂ P hP (h₁ P hP h)

theorem readPage {q : Int} {r : Except Status Int} (h : w.readPage (some f) q = (r, w₁)) : FileCalls f w w₁ :=
  fun P hP hw => by simpa only [h] using hP.readPage w q hw

theorem unPinPage {q : Int} {d : Bool} {st : Status} (h : w.unPinPage (some f) q d = (st, w₁)) :
    FileCalls f w w₁ :=
  fun P hP hw => by simpa only [h] using hP.unPinPage w q d hw

theorem allocPage {r : Except Status (Int × Nat)} (h : w.allocPage (some f) = (r, w₁)) : FileCalls f w w₁ :=
  fun P hP hw => by simpa only [h] using hP.allocPage w hw

theorem setFrame {q : Int} {j : Nat} (hf : w.pool.hashTable.find (some f, q) = some (j : Int)) (b : Img) :
    FileCalls f w (w.setFrame j b) :=
  fun _ hP hw => hP.setFrame w q j b hf hw

end FileCalls

end Minirel
