import Minirel.Heap.InsertRun
import Minirel.Buffer.Failures

/-!
# When `insertRecord` fails (`src/stage4/heapfile.C:588-648`)

`insertRecord` returns before it changes anything on a record too long for a
page and on a failed `readPage` of `lastPage`. On the page-chaining path it
allocates the new page, makes it the header's `lastPage` and links it after the
current page, and only then unpins the current page and inserts; a failure
there returns with those writes done and the new page pinned.

For a handle at the file's last page (`InsAt`) that second failure cannot
happen: the unpin is of a page the handle holds, and the new page is empty.
A handle that `getRecord` moved away from its `curPageNo` (a lookup of a slot
the page does not have, `HeapFile.lean`) reaches it.

**Results.**
* `World.allocPage_all_pinned`: with every frame pinned, `allocPage` fails
  with BUFFEREXCEEDED after a sweep, and no page's bytes and no pin change.
* `InsAt.insertRecord_error`: a handle at the last page of a well-formed file
  fails only on a record too long for a page, or when every frame is pinned;
  the handle, every page of the file, the file's records and every pin are as
  before.
* `insertRecord_error_after_relink`: a handle whose `curPageNo` is page 3 while
  its current frame holds the full page 2 fails with HASHNOTFOUND, after making
  the new page 4 the header's `lastPage`, linking it after page 2 and pinning it.
-/
namespace Minirel

open BufMgr

variable {w₀ w : World} {f : FileId} {us : List Nat} {s : InsertFileScan} {ps : List Int}
  {recs : List (RID × Record)}

/-- With every frame pinned, `allocPage` fails with BUFFEREXCEEDED after the DB
layer handed out a page number: the pool only sweeps. -/
theorem World.allocPage_all_pinned (hi : Inv w.pool) (hal : (w.io.allocatePage f).1 = .OK)
    (hp : ∀ u < w.pool.numBufs, (w.pool.bufTable u).pinCnt ≠ 0) :
    ∃ t, Sweep w.pool t ∧
      w.allocPage (some f) = (.error .BUFFEREXCEEDED, { w with pool := t, db := w.db.allocated f }) := by
  obtain ⟨t, hst, hab⟩ := allocBuf_all_pinned w.answers hi hp
  refine ⟨t, hst, ?_⟩
  have hans : w.answers.allocatePage f = (.OK, w.db.next f) := by simp only [World.answers, hal]
  simp only [World.allocPage, BufMgr.allocPage, allocPageWith, hans, hab, hal, if_true]

/-- A handle at the last page of a well-formed file: an `insertRecord` that fails
leaves the handle, every page of the file, its records and every pin as they
were. It fails only on a record too long for a page, or, when every frame is
pinned, on the allocation of a new page. -/
theorem InsAt.insertRecord_error (hI : InsAt w₀ f us s w ps recs) {G : Geom} {rec : Record} {e : Status}
    {s' : InsertFileScan} {w' : World} (h : s.insertRecord G w rec = (.error e, s', w')) :
    s' = s ∧ w'.image f = w.image f ∧ Layout w' f ps recs ∧ pinOf w'.pool = pinOf w.pool ∧
      (e = .INVALIDRECLEN ∨ e = .BUFFEREXCEEDED) := by
  obtain ⟨j, hj, -⟩ := hI.holds.curFrame
  have hpin : s.pinLast w = (.OK, s, w) := by simp [InsertFileScan.pinLast, hj]
  have hfull : ∀ x ∈ (s.page w).slots, x.isSome := by
    rw [hI.holds.page_eq]; exact hI.layout.full _ (List.mem_of_getLast?_eq_some hI.last)
  unfold InsertFileScan.insertRecord at h
  split at h
  · cases h; exact ⟨rfl, rfl, hI.layout, rfl, .inl rfl⟩
  next hlen =>
    rw [hpin] at h
    rcases (DataPage.insertRecord_of_full hfull : (s.page w).insertRecord G rec = _ ∨ _) with hno | hok
    · simp only [hno] at h
      by_cases hfree : ∃ u < w.pool.numBufs, (w.pool.bufTable u).pinCnt = 0
      · obtain ⟨s'', w'', he, -⟩ := hI.insertRecordNewPage_of_free hfree (Nat.le_of_not_lt hlen)
        rw [he] at h; cases h
      · obtain ⟨g, hc, -⟩ := hI.writing.ghost
        have hal : (w.io.allocatePage f).1 = .OK := hI.writing.io ▸ hI.writing.origin.alloc
        obtain ⟨t, hst, ha⟩ := World.allocPage_all_pinned hc.inv hal fun u hu h0 => hfree ⟨u, hu, h0⟩
        simp only [InsertFileScan.insertRecordNewPage, hI.holds.file, ha] at h
        obtain ⟨rfl, rfl, rfl⟩ := h
        have himg : World.image { w with pool := t, db := w.db.allocated f } f = w.image f := by
          funext q; exact congrFun hst.logical_eq (some f, q)
        have hfirst : w.db.first f ≠ -1 := by have := hI.layout.hdr_pos; omega
        refine ⟨rfl, himg, ?_, hst.pinOf_eq, .inr rfl⟩
        unfold Layout
        rw [himg, Db.allocated_first _ _ hfirst, Db.allocated_next]
        exact hI.layout.mono_next (Int.le_add_one (Int.le_refl _))
    · simp only [hok, InsertFileScan.inserted] at h
      cases h

/-! ## A handle away from its `curPageNo` -/

/-- The handle and world after `createHeapFile`, an `InsertFileScan` that
inserts two records (the second on a new page 3), and a `getRecord` of slot 5
of page 2, which has no such slot: the handle's frame holds page 2, its
`curPageNo` is still 3. -/
def strayInserter : InsertFileScan × World :=
  let c := createHeapFile (emptyWorld 3) "t"
  let o := InsertFileScan.new c.2 "t"
  let i1 := o.2.1.insertRecord onePerPage o.2.2 ⟨[1, 1]⟩
  let i2 := i1.2.1.insertRecord onePerPage i1.2.2 ⟨[2, 2]⟩
  let g := i2.2.1.getRecord i2.2.2 ⟨2, 5⟩
  (g.2.1, g.2.2)

/-- From `strayInserter`, inserting a third record: page 2 is full, so page 4 is
allocated into the frame of the unpinned page 3, made the header's `lastPage`
and linked after page 2; the unpin of page 3, no longer resident, fails with
HASHNOTFOUND. The header and page 2 keep the new link, and page 4 stays pinned. -/
theorem insertRecord_error_after_relink :
    let r : Except Status RID × InsertFileScan × World :=
      strayInserter.1.insertRecord onePerPage strayInserter.2 ⟨[3, 3]⟩
    let L : World → Int → Img := fun w p => logical w.pool (some 0, p)
    strayInserter.1.curPageNo = 3 ∧ r.1 = .error .HASHNOTFOUND ∧
      (L strayInserter.2 1).toHdr.lastPage = 3 ∧ (L r.2.2 1).toHdr.lastPage = 4 ∧
      (L strayInserter.2 2).toPage.nextPage = 3 ∧ (L r.2.2 2).toPage.nextPage = 4 ∧
      pinOf strayInserter.2.pool (some 0, 4) = 0 ∧ pinOf r.2.2.pool (some 0, 4) = 1 := by
  decide

end Minirel
