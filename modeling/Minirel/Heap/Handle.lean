import Minirel.Heap.Writing
import Minirel.Heap.Layout
import Minirel.Heap.HeapFile

/-!
# A heap-file handle in a writing session

A `HeapFile` handle that is open holds two pins, on its header page and on its
current page, and reads and writes them through the frames its pointers point
into (`HeapFile.Holds`). Its dirty flags say which of the two it wrote since it
last unpinned it (`HeapFile.wrote`). `World.image w f` is file `f` as the pool
shows it, page by page, and `Layout` says that it is a well-formed heap file
(`FileImage`).

**Results.**
* `Holds.hdr_eq`, `Holds.page_eq`: reading through the pointers gives the
  logical bytes of the header and current pages.
* `Holds.setHdr`, `Holds.setPage`: writing through them changes exactly that
  page of the image, in the session's terms.
* `Holds.keep`: a call that leaves the handle's pinned pages in their frames
  keeps the pointers valid.
-/
namespace Minirel

open BufMgr

/-- The pages of file `f` as the pool shows them. -/
def World.image (w : World) (f : FileId) (q : Int) : Img := logical w.pool (some f, q)

/-- File `f` of world `w` is a heap file with data pages `ps` and records `recs`. -/
def Layout (w : World) (f : FileId) (ps : List Int) (recs : List (RID × Record)) : Prop :=
  FileImage (w.image f) (w.db.first f) (w.db.next f) ps recs

theorem Layout.congr {w w' : World} {f : FileId} {ps : List Int} {recs : List (RID × Record)}
    (h : Layout w f ps recs) (hi : w'.image f = w.image f) (hdb : w'.db = w.db) : Layout w' f ps recs := by
  unfold Layout; rw [hi, hdb]; exact h

namespace HeapFile

/-- The handle's pins: one on the header page and one on the current page. -/
def held (h : HeapFile) (f : FileId) (k : Key) : Nat :=
  onePin (some f, h.headerPageNo) k + onePin (some f, h.curPageNo) k

/-- The pages the handle wrote and has not unpinned since: those its dirty flags mark. -/
def wrote (h : HeapFile) (q : Int) : Bool :=
  (h.hdrDirtyFlag && q == h.headerPageNo) || (h.curDirtyFlag && q == h.curPageNo)

/-- The handle is open on file `f`: its header page is the file's first page,
and its pointers point into the frames of its header page and current page. -/
structure Holds (h : HeapFile) (f : FileId) (w : World) : Prop where
  file : h.filePtr = some f
  hdrNo : h.headerPageNo = w.db.first f
  hdrFrame : ∃ j : Nat, h.headerPage = some (j : Int) ∧
    w.pool.hashTable.find (some f, h.headerPageNo) = some (j : Int)
  curFrame : ∃ j : Nat, h.curPage = some (j : Int) ∧ w.pool.hashTable.find (some f, h.curPageNo) = some (j : Int)

variable {h : HeapFile} {f : FileId} {w w' w₀ : World} {us : List Nat} {held' : Key → Nat} {wrote' : Int → Bool}

theorem Holds.hdr_eq (hh : h.Holds f w) : h.hdr w = (w.image f h.headerPageNo).toHdr := by
  obtain ⟨j, hp, hf⟩ := hh.hdrFrame
  simp only [hdr, hp, Option.getD_some, World.frame_natCast, World.image, logical_of_find hf]

theorem Holds.page_eq (hh : h.Holds f w) : h.page w = (w.image f h.curPageNo).toPage := by
  obtain ⟨j, hp, hf⟩ := hh.curFrame
  simp only [page, hp, Option.getD_some, World.frame_natCast, World.image, logical_of_find hf]

/-- Writing frame `j` of page `q`, which the handle holds: the image changes at `q`. -/
theorem image_setFrame (hW : Writing w₀ f us held' wrote' w) {q : Int} {j : Nat}
    (hf : w.pool.hashTable.find (some f, q) = some (j : Int)) (hp : 0 < held' (some f, q)) (b : Img) :
    (w.setFrame j b).image f = Function.update (w.image f) q b := by
  funext q'
  rw [World.image, (hW.write hf hp b).1, Function.update_apply]; rfl

theorem Holds.setFrame (hh : h.Holds f w) (i : Int) (b : Img) : h.Holds f (w.setFrame i b) :=
  ⟨hh.file, hh.hdrNo, hh.hdrFrame, hh.curFrame⟩

/-- A write through the header pointer. -/
theorem Holds.setHdr (hh : h.Holds f w) (hW : Writing w₀ f us held' wrote' w)
    (hp : 0 < held' (some f, h.headerPageNo)) (H : HdrPage) :
    (h.setHdr w H).image f = Function.update (w.image f) h.headerPageNo (.hdr H) ∧
      Writing w₀ f us held' (Function.update wrote' h.headerPageNo true) (h.setHdr w H) := by
  obtain ⟨j, hj, hf⟩ := hh.hdrFrame
  rw [HeapFile.setHdr, hj, Option.getD_some]
  exact ⟨image_setFrame hW hf hp _, (hW.write hf hp _).2⟩

/-- A write through the current-page pointer. -/
theorem Holds.setPage (hh : h.Holds f w) (hW : Writing w₀ f us held' wrote' w)
    (hp : 0 < held' (some f, h.curPageNo)) (P : DataPage) :
    (h.setPage w P).image f = Function.update (w.image f) h.curPageNo (.data P) ∧
      Writing w₀ f us held' (Function.update wrote' h.curPageNo true) (h.setPage w P) := by
  obtain ⟨j, hj, hf⟩ := hh.curFrame
  rw [HeapFile.setPage, hj, Option.getD_some]
  exact ⟨image_setFrame hW hf hp _, (hW.write hf hp _).2⟩

theorem Holds.calls_setHdr (hh : h.Holds f w) (H : HdrPage) : FileCalls f w (h.setHdr w H) := by
  obtain ⟨j, hj, hf⟩ := hh.hdrFrame
  rw [HeapFile.setHdr, hj, Option.getD_some]
  exact FileCalls.setFrame hf _

theorem Holds.calls_setPage (hh : h.Holds f w) (P : DataPage) : FileCalls f w (h.setPage w P) := by
  obtain ⟨j, hj, hf⟩ := hh.curFrame
  rw [HeapFile.setPage, hj, Option.getD_some]
  exact FileCalls.setFrame hf _

/-- A call that keeps the handle's pinned pages in their frames, and the file's
first page, keeps the pointers valid. -/
theorem Holds.keep (hh : h.Holds f w) (hk : Keeps held' w w') (hh₁ : 0 < held' (some f, h.headerPageNo))
    (hh₂ : 0 < held' (some f, h.curPageNo)) (hdb : w'.db.first f = w.db.first f) : h.Holds f w' := by
  obtain ⟨j₁, hp₁, hf₁⟩ := hh.hdrFrame
  obtain ⟨j₂, hp₂, hf₂⟩ := hh.curFrame
  exact ⟨hh.file, hh.hdrNo.trans hdb.symm, ⟨j₁, hp₁, hk _ _ hf₁ hh₁⟩,
    ⟨j₂, hp₂, hk _ _ hf₂ hh₂⟩⟩

theorem held_hdr (h : HeapFile) (f : FileId) : 0 < h.held f (some f, h.headerPageNo) := by
  unfold held onePin; rw [if_pos rfl]; omega

theorem held_cur (h : HeapFile) (f : FileId) : 0 < h.held f (some f, h.curPageNo) := by
  unfold held onePin; rw [if_pos rfl]; omega

/-- The handle's pins are on its header page and its current page. -/
theorem mem_of_held_pos (h : HeapFile) (f : FileId) {k : Key} (hk : 0 < h.held f k) :
    k ∈ [(some f, h.headerPageNo), (some f, h.curPageNo)] := by
  unfold held onePin at hk
  split at hk
  · subst k; exact List.mem_cons_self _ _
  · split at hk
    · exact List.mem_cons_of_mem _ (List.mem_singleton.2 ‹_›)
    · omega

/-- The pages the handle owes a write-back are its header page and its current page. -/
theorem eq_of_wrote {q : Int} (hw : h.wrote q = true) : q = h.headerPageNo ∨ q = h.curPageNo := by
  simp only [wrote, Bool.or_eq_true, Bool.and_eq_true, beq_iff_eq] at hw
  exact hw.imp And.right And.right

/-- Writes through both pointers, by a handle that owed at most its two pages,
leave it owing exactly those two. -/
theorem update_wrote_both (h : HeapFile) {wr : Int → Bool}
    (hwr : ∀ q, wr q = true → q = h.headerPageNo ∨ q = h.curPageNo) (q : Int) :
    Function.update (Function.update wr h.curPageNo true) h.headerPageNo true q =
      (q == h.headerPageNo || q == h.curPageNo) := by
  simp only [Function.update_apply]
  by_cases h₁ : q = h.headerPageNo
  · simp [h₁]
  · by_cases h₂ : q = h.curPageNo
    · simp [h₂]
    · cases hq : wr q
      · simp [h₁, h₂]
      · exact absurd (hwr q hq) (by simp [h₁, h₂])

/-- The constructor, in a settled world with two free frames, on a file whose
header page and first data page are allocated: it pins both, reads them into
the frames its pointers point to, and writes nothing. -/
theorem new_holds {name : String} (hS : Settled f us w) (hnd : us.Nodup) (h2 : 2 ≤ us.length)
    (hopen : w.db.openFile name = .ok f) (hh : w.db.first f < w.db.next f)
    (hp : (w.image f (w.db.first f)).toHdr.firstPage < w.db.next f) :
    (HeapFile.new w name).1 = .OK ∧ (HeapFile.new w name).2.1.Holds f (HeapFile.new w name).2.2 ∧
      (HeapFile.new w name).2.1.curPageNo = (w.image f (w.db.first f)).toHdr.firstPage ∧
      (HeapFile.new w name).2.1.hdrDirtyFlag = false ∧ (HeapFile.new w name).2.1.curDirtyFlag = false ∧
      (HeapFile.new w name).2.1.curRec = NULLRID ∧
      (HeapFile.new w name).2.2.image f = w.image f ∧ (HeapFile.new w name).2.2.db = w.db ∧
      Writing w f us ((HeapFile.new w name).2.1.held f) (fun _ => false) (HeapFile.new w name).2.2 ∧
      FileCalls f w (HeapFile.new w name).2.2 := by
  have hW := Writing.start hS
  have hks : ∀ k, 0 < (fun _ => 0 : Key → Nat) k → k ∈ ([] : List Key) := fun _ h => absurd h (Nat.lt_irrefl 0)
  obtain ⟨j₁, w1, hr1, hf1, hdb1, hl1, hk1, hW1⟩ := hW.readPage hh
    (hW.free hnd hks (by simp only [List.length_nil]; omega))
  have hH : (w1.frame j₁).toHdr = (w.image f (w.db.first f)).toHdr := by
    rw [World.frame_natCast, ← logical_of_find hf1]; exact congrArg Img.toHdr (hl1 _)
  have hks1 : ∀ k, 0 < 0 + onePin (some f, w.db.first f) k → k ∈ [(some f, w.db.first f)] := fun k hk => by
    unfold onePin at hk; split at hk
    · exact List.mem_singleton.2 ‹_›
    · omega
  obtain ⟨j₂, w2, hr2, hf2, hdb2, hl2, hk2, hW2⟩ := hW1.readPage
    (by rw [hdb1]; exact hp : (w.image f (w.db.first f)).toHdr.firstPage < w1.db.next f)
    (hW1.free hnd hks1 (by simp only [List.length_singleton]; omega))
  simp only [HeapFile.new, hopen, Db.getFirstPage, hr1, HeapFile.hdr, Option.getD_some, hH, hr2]
  refine ⟨trivial, ⟨rfl, by rw [hdb2, hdb1], ⟨j₁, rfl, hk2 _ _ hf1 (by simp [onePin])⟩, ⟨j₂, rfl, hf2⟩⟩,
    trivial, trivial, trivial, trivial, funext fun q => (hl2 q).trans (hl1 q), hdb2.trans hdb1,
    hW2.congr (fun k => ?_) fun _ => rfl, (FileCalls.readPage hr1).trans (FileCalls.readPage hr2)⟩
  simp only [held, Nat.zero_add]

end HeapFile

end Minirel
