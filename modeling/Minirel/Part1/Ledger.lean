import Minirel.Heap.Pinning
import Minirel.Part1.Scan

/-!
# The other version's handles hold exactly their pins

A part_001 handle believes it holds one pin on its header page while
`headerPage` is set and one on its current page while `curPage` is set
(`Part1.HeapFile.held`). `Part1.Holds w₀ u₁ u₂ h w` says the pool agrees: its
pins are those of the session's start `w₀` plus the handle's, two frames carry
no pins but the handle's (`Minirel.Heap.Pinning`), and a handle without a file
holds nothing.

* `unpinCur`, `unpinHeader`, `readHeader`, `readCur`, `frame`, `setFrame`: what
  one pool call, or a change of fields the ledger does not read, does to it.
  Every unpin the handle makes is of a page it holds, so it succeeds; every
  read it makes happens while it holds the header page alone, so with two
  frames to spare it succeeds.
* one lemma per function of part_001 (`moveTo`, `getRecord`, `readFirstPage`,
  `rewind`, `startScan`, `endScan`, `resetScan`, `scanLoop`, `scanNext`,
  `deleteRecord`, the constructor): each keeps `Holds`.
* `Part1.scanLts w₀`: a scan handle and the world as a state machine, started
  by the constructor on any file name and driven by any call of a client
  (`Part1.ScanCall`).

**Results.**
* `Part1.holds_inductive`, `Part1.scan_handle_pins`: in every reachable state
  of `scanLts`, whatever the file holds and whatever the calls return, the
  pool's pins are those of the start plus the handle's, and the destructor
  leaves the pins of the start.
* `Part1.createHeapFile_keeps_pins`: `createHeapFile` leaves every page's pins
  as they were, on every path, in any sound pool.
-/
namespace Minirel

open BufMgr

/-- The pins a part_001 handle holds: one on its header page while `headerPage`
is set, one on its current page while `curPage` is set, both of its file. -/
def Part1.HeapFile.held (h : HeapFile) (k : Key) : Nat :=
  (if h.headerPage.isSome then onePin (h.filePtr, h.headerPageNo) k else 0) +
    if h.curPage.isSome then onePin (h.filePtr, h.curPageNo) k else 0

/-- A part_001 handle in a session begun at `w₀`: the pool's pins are those of
`w₀` plus the handle's, the frames `u₁` and `u₂` carry no pins but the
handle's, and a handle without a file holds no page. -/
structure Part1.Holds (w₀ : World) (u₁ u₂ : Nat) (h : HeapFile) (w : World) : Prop where
  pinning : Pinning w₀ u₁ u₂ (Part1.HeapFile.held h) w
  file : h.filePtr = none → h.headerPage = none ∧ h.curPage = none

/-- A pinning whose ledger is that of a handle with a file is a holding of it. -/
theorem Pinning.holds {w₀ w : World} {u₁ u₂ : Nat} {h : HeapFile} {held : Key → Nat}
    (hP : Pinning w₀ u₁ u₂ held w) {f : FileId} (hf : h.filePtr = some f)
    (e : ∀ k, held k = Part1.HeapFile.held h k) : Part1.Holds w₀ u₁ u₂ h w :=
  ⟨hP.congr e, fun e => absurd (hf ▸ e) (Option.some_ne_none f)⟩

namespace Part1.Holds

variable {w₀ w : World} {u₁ u₂ : Nat} {h : HeapFile}

/-- The ledger reads the file, the header page and the current page only. -/
theorem frame (hH : Part1.Holds w₀ u₁ u₂ h w) {h' : HeapFile} (hf : h'.filePtr = h.filePtr)
    (hh : h'.headerPage = h.headerPage) (hn : h'.headerPageNo = h.headerPageNo) (hc : h'.curPage = h.curPage)
    (hcn : h.curPage.isSome → h'.curPageNo = h.curPageNo) : Part1.Holds w₀ u₁ u₂ h' w := by
  refine ⟨hH.pinning.congr fun k => ?_, fun e => hh ▸ hc ▸ hH.file (hf ▸ e)⟩
  unfold Part1.HeapFile.held
  rw [hf, hh, hn, hc]
  cases hs : h.curPage.isSome
  · rfl
  · rw [hcn hs]

theorem setFrame (hH : Part1.Holds w₀ u₁ u₂ h w) (i : Int) (img : Img) : Part1.Holds w₀ u₁ u₂ h (w.setFrame i img) :=
  ⟨hH.pinning.setFrame i img, hH.file⟩

/-- A handle that holds nothing leaves the pins of the start. -/
theorem pins_eq (hH : Part1.Holds w₀ u₁ u₂ h w) (hh : h.headerPage = none) (hc : h.curPage = none) (k : Key) :
    pinOf w.pool k = pinOf w₀.pool k := by
  rw [hH.pinning.ledger, Part1.HeapFile.held, hh, hc]; rfl

/-- Two handles that hold nothing hold the same pins. -/
theorem of_empty (hH : Part1.Holds w₀ u₁ u₂ h w) (hh : h.headerPage = none) (hc : h.curPage = none) {h' : HeapFile}
    (hh' : h'.headerPage = none) (hc' : h'.curPage = none) : Part1.Holds w₀ u₁ u₂ h' w :=
  ⟨hH.pinning.congr fun k => by simp [Part1.HeapFile.held, hh, hc, hh', hc'], fun _ => ⟨hh', hc'⟩⟩

theorem filePtr_of_curPage (hH : Part1.Holds w₀ u₁ u₂ h w) {c : Int} (hc : h.curPage = some c) :
    ∃ f, h.filePtr = some f :=
  Option.ne_none_iff_exists'.1 fun e => by rw [(hH.file e).2] at hc; cases hc

theorem filePtr_of_headerPage (hH : Part1.Holds w₀ u₁ u₂ h w) {c : Int} (hc : h.headerPage = some c) :
    ∃ f, h.filePtr = some f :=
  Option.ne_none_iff_exists'.1 fun e => by rw [(hH.file e).1] at hc; cases hc

/-- Unpinning the current page succeeds; the handle then holds no current page. -/
theorem unpinCur (hH : Part1.Holds w₀ u₁ u₂ h w) {c : Int} (hc : h.curPage = some c) (d : Bool) :
    ∃ w', w.unPinPage h.filePtr h.curPageNo d = (.OK, w') ∧ Part1.Holds w₀ u₁ u₂ { h with curPage := none } w' := by
  obtain ⟨f, hf⟩ := hH.filePtr_of_curPage hc
  have hpos : 0 < Part1.HeapFile.held h (some f, h.curPageNo) := by
    simp [Part1.HeapFile.held, hc, hf, onePin]
  obtain ⟨w', hu, hP⟩ := hH.pinning.unPinPage hpos d
  refine ⟨w', hf ▸ hu, hP.holds hf fun k => ?_⟩
  simp only [Part1.HeapFile.held, hc, hf, Option.isSome_some, Option.isSome_none,
    Bool.false_eq_true, if_true, if_false]
  omega

/-- Unpinning the header page succeeds; the handle then holds no header page. -/
theorem unpinHeader (hH : Part1.Holds w₀ u₁ u₂ h w) {c : Int} (hc : h.headerPage = some c) (d : Bool) :
    ∃ w', w.unPinPage h.filePtr h.headerPageNo d = (.OK, w') ∧
      Part1.Holds w₀ u₁ u₂ { h with headerPage := none } w' := by
  obtain ⟨f, hf⟩ := hH.filePtr_of_headerPage hc
  have hpos : 0 < Part1.HeapFile.held h (some f, h.headerPageNo) := by
    simp [Part1.HeapFile.held, hc, hf, onePin]
  obtain ⟨w', hu, hP⟩ := hH.pinning.unPinPage hpos d
  refine ⟨w', hf ▸ hu, hP.holds hf fun k => ?_⟩
  simp only [Part1.HeapFile.held, hc, hf, Option.isSome_some, Option.isSome_none,
    Bool.false_eq_true, if_true, if_false]
  omega

/-- With no page held, reading the header page of the handle's file succeeds. -/
theorem readHeader (hH : Part1.Holds w₀ u₁ u₂ h w) (hh : h.headerPage = none) (hc : h.curPage = none)
    {f : FileId} (hf : h.filePtr = some f) :
    ∃ (j : Nat) (w' : World), w.readPage (some f) h.headerPageNo = (.ok j, w') ∧
      Part1.Holds w₀ u₁ u₂ { h with headerPage := some j } w' := by
  obtain ⟨j, w', hr, hP⟩ := hH.pinning.readPage f h.headerPageNo (some f, h.headerPageNo)
    (fun k => by simp [Part1.HeapFile.held, hh, hc])
  refine ⟨j, w', hr, hP.holds hf fun k => ?_⟩
  simp only [Part1.HeapFile.held, hh, hc, hf, Option.isSome_some, Option.isSome_none,
    Bool.false_eq_true, if_true, if_false]
  omega

/-- With the header page at most, reading a page of the handle's file succeeds
and makes it the current page. -/
theorem readCur (hH : Part1.Holds w₀ u₁ u₂ h w) (hc : h.curPage = none) {f : FileId} (hf : h.filePtr = some f)
    (q : Int) :
    ∃ (j : Nat) (w' : World), w.readPage (some f) q = (.ok j, w') ∧
      Part1.Holds w₀ u₁ u₂ { h with curPage := some (j : Int), curPageNo := q } w' := by
  obtain ⟨j, w', hr, hP⟩ := hH.pinning.readPage f q (some f, h.headerPageNo)
    (fun k => by simp only [Part1.HeapFile.held, hc, hf]; split <;> simp)
  refine ⟨j, w', hr, hP.holds hf fun k => ?_⟩
  simp only [Part1.HeapFile.held, hc, hf, Option.isSome_some, Option.isSome_none,
    Bool.false_eq_true, if_true, if_false]
  omega

/-! ## One lemma per function -/

/-- Unpinning the current page, if there is one, succeeds. -/
theorem unpinCur' (hH : Part1.Holds w₀ u₁ u₂ h w) :
    ∃ w', Part1.HeapFile.unpinCur h w = (.OK, w') ∧ Part1.Holds w₀ u₁ u₂ { h with curPage := none } w' := by
  unfold Part1.HeapFile.unpinCur
  cases hc : h.curPage with
  | none => exact ⟨w, rfl, hH.frame rfl rfl rfl hc.symm fun _ => rfl⟩
  | some c => exact hH.unpinCur hc h.curDirtyFlag

/-- mirrors part_001:200-215: the move of `getRecord` to the RID's page. -/
theorem moveTo (hH : Part1.Holds w₀ u₁ u₂ h w) (pageNo : Int) :
    Part1.Holds w₀ u₁ u₂ (Part1.HeapFile.moveTo h w pageNo).2.1 (Part1.HeapFile.moveTo h w pageNo).2.2 := by
  obtain ⟨w1, hu, hH1⟩ := hH.unpinCur'
  rw [Part1.HeapFile.moveTo, hu]
  cases hf : h.filePtr with
  | none => exact hH1.frame hf.symm rfl rfl rfl (by simp)
  | some f =>
    obtain ⟨j, w2, hr, hH2⟩ := hH1.readCur rfl hf pageNo
    simp only [hr]
    exact hH2.frame hf.symm rfl rfl rfl fun _ => rfl

/-- mirrors part_001:194-222 (`HeapFile::getRecord`): for every RID. -/
theorem getRecord (hH : Part1.Holds w₀ u₁ u₂ h w) (rid : RID) :
    Part1.Holds w₀ u₁ u₂ (Part1.HeapFile.getRecord h w rid).2.1 (Part1.HeapFile.getRecord h w rid).2.2 := by
  unfold Part1.HeapFile.getRecord
  split
  · exact hH
  split
  next st h1 w1 heq =>
  have hm : Part1.Holds w₀ u₁ u₂ h1 w1 := by
    split at heq
    · simpa only [heq] using hH.moveTo rid.pageNo
    · cases heq; exact hH
  split
  · exact hm
  · split
    · exact hm.frame rfl rfl rfl rfl fun _ => rfl
    · exact hm

/-- mirrors part_001:125-145: the end of the constructor, from no current page. -/
theorem readFirst (hH : Part1.Holds w₀ u₁ u₂ h w) (hc : h.curPage = none) :
    Part1.Holds w₀ u₁ u₂ (Part1.HeapFile.readFirst h w).2.1 (Part1.HeapFile.readFirst h w).2.2 := by
  unfold Part1.HeapFile.readFirst
  split
  · cases hf : h.filePtr with
    | none => exact hH.of_empty (hH.file hf).1 hc rfl hc
    | some f =>
      obtain ⟨j, w1, hr, hH1⟩ := hH.readCur hc hf (h.hdr w).firstPage
      simp only [hr]
      exact hH1.frame hf.symm rfl rfl rfl fun _ => rfl
  · exact hH

/-- mirrors part_001:86-146 (`HeapFile::HeapFile`): from a session that holds
nothing, on every path. -/
theorem heapFileNew (hP : Pinning w₀ u₁ u₂ (fun _ => 0) w) (name : String) :
    Part1.Holds w₀ u₁ u₂ (Part1.HeapFile.new w name).2.1 (Part1.HeapFile.new w name).2.2 := by
  have h0 : Part1.Holds w₀ u₁ u₂ HeapFile.initial w := ⟨hP.congr fun _ => rfl, fun _ => ⟨rfl, rfl⟩⟩
  unfold Part1.HeapFile.new
  split
  · exact h0
  · next f _ =>
    dsimp only
    split
    · exact h0.of_empty rfl rfl rfl rfl
    · have h1 : Part1.Holds w₀ u₁ u₂
          { HeapFile.initial with filePtr := some f, headerPageNo := w.db.getFirstPage f } w :=
        h0.of_empty rfl rfl rfl rfl
      obtain ⟨j, w1, hr, hH1⟩ := h1.readHeader rfl rfl rfl
      simp only [hr]
      exact (hH1.frame rfl rfl rfl rfl fun _ => rfl).readFirst rfl

/-! ## The scan's functions -/

section Scan

variable {s : HeapFileScan}

/-- mirrors part_001:262-270, from no current page. -/
theorem readFirstPage (hH : Part1.Holds w₀ u₁ u₂ s.toHeapFile w) (hc : s.curPage = none) :
    Part1.Holds w₀ u₁ u₂ (Part1.HeapFileScan.readFirstPage s w).2.1.toHeapFile
      (Part1.HeapFileScan.readFirstPage s w).2.2 := by
  unfold Part1.HeapFileScan.readFirstPage
  split
  · exact hH.frame rfl rfl rfl rfl fun _ => rfl
  · split
    · exact hH.frame rfl rfl rfl rfl fun _ => rfl
    · cases hf : s.filePtr with
      | none => exact hH
      | some f =>
        obtain ⟨j, w1, hr, hH1⟩ := hH.readCur hc hf (s.hdr w).firstPage
        simp only [hr]
        exact hH1.frame rfl rfl rfl rfl fun _ => rfl

/-- mirrors part_001:251-270 -/
theorem rewind (hH : Part1.Holds w₀ u₁ u₂ s.toHeapFile w) :
    Part1.Holds w₀ u₁ u₂ (Part1.HeapFileScan.rewind s w).2.1.toHeapFile (Part1.HeapFileScan.rewind s w).2.2 := by
  unfold Part1.HeapFileScan.rewind
  cases hc : s.curPage with
  | none => exact hH.readFirstPage hc
  | some c =>
    obtain ⟨w1, hu, hH1⟩ := hH.unpinCur hc s.curDirtyFlag
    simp only [hu]
    exact Part1.Holds.readFirstPage (hH1.frame rfl rfl rfl rfl (by simp)) rfl

/-- mirrors part_001:227-271 (`HeapFileScan::startScan`) -/
theorem startScan (hH : Part1.Holds w₀ u₁ u₂ s.toHeapFile w) (offset length : Int) (type : Datatype)
    (filter : Option (List UInt8)) (op : Operator) :
    Part1.Holds w₀ u₁ u₂ (Part1.HeapFileScan.startScan s w offset length type filter op).2.1.toHeapFile
      (Part1.HeapFileScan.startScan s w offset length type filter op).2.2 := by
  have ht := s.startScan_toHeapFile offset length type filter op
  unfold Part1.HeapFileScan.startScan
  split
  · next s1 he =>
    rw [he] at ht
    exact Part1.Holds.rewind (s := { s1 with markedPageNo := -1, markedRec := NULLRID }) (ht ▸ hH)
  · next _ s1 _ he => rw [he] at ht; exact ht ▸ hH

/-- mirrors part_001:273-285 (`HeapFileScan::endScan`) -/
theorem endScan (hH : Part1.Holds w₀ u₁ u₂ s.toHeapFile w) :
    Part1.Holds w₀ u₁ u₂ (Part1.HeapFileScan.endScan s w).2.1.toHeapFile (Part1.HeapFileScan.endScan s w).2.2 := by
  unfold Part1.HeapFileScan.endScan
  cases hc : s.curPage with
  | none => exact hH
  | some c =>
    obtain ⟨w1, hu, hH1⟩ := hH.unpinCur hc s.curDirtyFlag
    simp only [hu]
    exact hH1.frame rfl rfl rfl rfl (by simp)

/-- mirrors part_001:299-318 (`HeapFileScan::resetScan`): with two frames to
spare the read of the marked page succeeds. -/
theorem resetScan (hH : Part1.Holds w₀ u₁ u₂ s.toHeapFile w) :
    Part1.Holds w₀ u₁ u₂ (Part1.HeapFileScan.resetScan s w).2.1.toHeapFile
      (Part1.HeapFileScan.resetScan s w).2.2 := by
  unfold Part1.HeapFileScan.resetScan
  split
  · exact hH
  split
  · obtain ⟨w1, hu, hH1⟩ := hH.unpinCur'
    simp only [hu]
    cases hf : s.filePtr with
    | none => exact hH1.frame hf.symm rfl rfl (hH.file hf).2 (by simp)
    | some f =>
      obtain ⟨j, w2, hr, hH2⟩ := hH1.readCur rfl hf s.markedPageNo
      simp only [hr]
      exact hH2.frame hf.symm rfl rfl rfl fun _ => rfl
  · exact hH.frame rfl rfl rfl rfl fun _ => rfl

/-- The loop of `scanNext` (part_001:345-376) keeps the ledger with any bound on
its iterations. -/
theorem scanLoop : ∀ (n : Nat) {s : HeapFileScan} {w : World} {r : Except Status RID × HeapFileScan × World},
    Part1.Holds w₀ u₁ u₂ s.toHeapFile w → s.curPage.isSome → Part1.HeapFileScan.scanLoop n s w = some r →
    Part1.Holds w₀ u₁ u₂ r.2.1.toHeapFile r.2.2
  | 0, _, _, _, _, _, hr => by cases hr
  | n + 1, s, w, r, hH, hc, hr => by
    obtain ⟨c, hc⟩ := Option.isSome_iff_exists.1 hc
    unfold Part1.HeapFileScan.scanLoop at hr
    split at hr
    case h_1 =>
      split at hr
      · cases hr; exact hH
      · dsimp only at hr
        split at hr
        · cases hr; exact hH.frame rfl rfl rfl rfl fun _ => rfl
        · refine scanLoop n ?_ (by simp [hc]) hr
          exact hH.frame rfl rfl rfl rfl fun _ => rfl
    case h_4 => cases hr; exact hH
    all_goals
      dsimp only at hr
      split at hr
      · cases hr; exact hH
      · obtain ⟨f, hf⟩ := hH.filePtr_of_curPage hc
        obtain ⟨w1, hu, hH1⟩ := hH.unpinCur hc s.curDirtyFlag
        obtain ⟨j, w2, hr', hH2⟩ := hH1.readCur rfl hf (s.page w).nextPage
        simp only [hu] at hr
        simp only [hf, hr'] at hr
        refine scanLoop n ?_ ?_ hr
        · exact hH2.frame rfl rfl rfl rfl fun _ => rfl
        · rfl

/-- mirrors part_001:320-377 (`HeapFileScan::scanNext`), with any bound on the
iterations of its loop. -/
theorem scanNext (hH : Part1.Holds w₀ u₁ u₂ s.toHeapFile w) {n : Nat}
    {r : Except Status RID × HeapFileScan × World} (hr : Part1.HeapFileScan.scanNext n s w = some r) :
    Part1.Holds w₀ u₁ u₂ r.2.1.toHeapFile r.2.2 := by
  unfold Part1.HeapFileScan.scanNext at hr
  split at hr
  · cases hr; exact hH
  · split at hr
    · next hc =>
      split at hr
      · cases hr; exact hH
      · cases hf : s.filePtr with
        | none => simp only [hf, World.readPage] at hr; cases hr; exact hH
        | some f =>
          obtain ⟨j, w1, hr', hH1⟩ := hH.readCur hc hf (s.hdr w).firstPage
          simp only [hf, hr'] at hr
          refine scanLoop n ?_ ?_ hr
          · exact hH1.frame rfl rfl rfl rfl fun _ => rfl
          · rfl
    · next hc => exact scanLoop n hH (by simp [hc]) hr

/-- mirrors part_001:388-401 (`HeapFileScan::deleteRecord`) -/
theorem deleteRecord (hH : Part1.Holds w₀ u₁ u₂ s.toHeapFile w) :
    Part1.Holds w₀ u₁ u₂ (Part1.HeapFileScan.deleteRecord s w).2.1.toHeapFile
      (Part1.HeapFileScan.deleteRecord s w).2.2 := by
  unfold Part1.HeapFileScan.deleteRecord
  split
  · exact hH
  · split
    · exact hH
    · dsimp only
      split
      · exact ((hH.setFrame _ _).setFrame _ _).frame rfl rfl rfl rfl fun _ => rfl
      · exact (hH.setFrame _ _).frame rfl rfl rfl rfl fun _ => rfl

end Scan

/-- mirrors part_001:149-183 (`HeapFile::~HeapFile`): the pins of the start. -/
theorem heapFileDestructor (hH : Part1.Holds w₀ u₁ u₂ h w) (k : Key) :
    pinOf (Part1.HeapFile.destructor h w).pool k = pinOf w₀.pool k := by
  unfold Part1.HeapFile.destructor
  cases hf : h.filePtr with
  | none => exact hH.pins_eq (hH.file hf).1 (hH.file hf).2 k
  | some f =>
    obtain ⟨w1, hu, hH1⟩ := hH.unpinCur'
    simp only [hu]
    cases hh : h.headerPage with
    | none => exact hH1.pins_eq hh rfl k
    | some c =>
      obtain ⟨w2, hu2, hH2⟩ := hH1.unpinHeader hh h.hdrDirtyFlag
      simp only [← hf, hu2]
      exact hH2.pins_eq rfl rfl k

/-- mirrors part_001:287-289 (`HeapFileScan::~HeapFileScan`) and the base
destructor: the pins of the start. -/
theorem destructor {s : HeapFileScan} (hH : Part1.Holds w₀ u₁ u₂ s.toHeapFile w) (k : Key) :
    pinOf (Part1.HeapFileScan.destructor s w).pool k = pinOf w₀.pool k :=
  hH.endScan.heapFileDestructor k

end Part1.Holds

/-! ## Any client -/

/-- A call a client makes on a part_001 `HeapFileScan`: its methods, and the
`HeapFile::getRecord` it inherits (`fetch`); `scanNext` with a bound on the
iterations of its loop. -/
inductive Part1.ScanCall where
  | startScan (offset length : Int) (type : Datatype) (filter : Option (List UInt8)) (op : Operator)
  | scanNext (n : Nat)
  | getRecord
  | deleteRecord
  | markDirty
  | markScan
  | resetScan
  | endScan
  | fetch (rid : RID)
  deriving DecidableEq, Repr

/-- The scan and the world after one call; `none` when `scanNext` runs out of
iterations. -/
def Part1.ScanCall.run : Part1.ScanCall → HeapFileScan → World → Option (HeapFileScan × World)
  | .startScan offset length type filter op, s, w =>
    let r := Part1.HeapFileScan.startScan s w offset length type filter op
    some (r.2.1, r.2.2)
  | .scanNext n, s, w => (Part1.HeapFileScan.scanNext n s w).map fun r => (r.2.1, r.2.2)
  | .getRecord, s, w => some (s, w)
  | .deleteRecord, s, w =>
    let r := Part1.HeapFileScan.deleteRecord s w
    some (r.2.1, r.2.2)
  | .markDirty, s, w => some (s.markDirty, w)
  | .markScan, s, w => some ((Part1.HeapFileScan.markScan s).2, w)
  | .resetScan, s, w =>
    let r := Part1.HeapFileScan.resetScan s w
    some (r.2.1, r.2.2)
  | .endScan, s, w =>
    let r := Part1.HeapFileScan.endScan s w
    some (r.2.1, r.2.2)
  | .fetch rid, s, w =>
    let r := Part1.HeapFile.getRecord s.toHeapFile w rid
    some ({ s with toHeapFile := r.2.1 }, r.2.2)

/-- A part_001 scan handle and the world as a state machine, in a session begun
at `w₀`: the constructor on any file name, then any calls. -/
def Part1.scanLts (w₀ : World) : LTS (HeapFileScan × World) Part1.ScanCall where
  init x := ∃ name, x = ((Part1.HeapFileScan.new w₀ name).2.1, (Part1.HeapFileScan.new w₀ name).2.2)
  step x c x' := c.run x.1 x.2 = some x'

section Client

variable {w₀ : World} {u₁ u₂ : Nat}

/-- From a session that holds nothing, every call keeps the ledger. -/
theorem Part1.holds_inductive (hP : Pinning w₀ u₁ u₂ (fun _ => 0) w₀) :
    (Part1.scanLts w₀).Inductive fun x => Part1.Holds w₀ u₁ u₂ x.1.toHeapFile x.2 where
  init x := by
    rintro ⟨name, rfl⟩
    exact Part1.Holds.heapFileNew hP name
  step x c x' hx hs := by
    obtain ⟨s, w⟩ := x
    cases c with
    | startScan offset length type filter op => cases hs; exact hx.startScan offset length type filter op
    | scanNext n =>
      obtain ⟨r, hr, rfl⟩ := Option.map_eq_some'.1 hs
      exact hx.scanNext hr
    | getRecord => cases hs; exact hx
    | deleteRecord => cases hs; exact hx.deleteRecord
    | markDirty => cases hs; exact hx.frame rfl rfl rfl rfl fun _ => rfl
    | markScan =>
      cases hs
      unfold Part1.HeapFileScan.markScan
      split <;> exact hx
    | resetScan => cases hs; exact hx.resetScan
    | endScan => cases hs; exact hx.endScan
    | fetch rid => cases hs; exact hx.getRecord rid

/-- A part_001 `HeapFileScan` in a pool that keeps its invariant, where every
file read and write succeeds and two frames are unpinned at the start: after
the constructor on any file name and any calls of its methods (and of the
`HeapFile::getRecord` it inherits), whatever the file holds and whatever the
calls return, the pool's pins are those of the start plus one on the header
page while `headerPage` is set and one on the current page while `curPage` is
set. The destructor then leaves the pins of the start. -/
theorem Part1.scan_handle_pins (hw : w₀.Sound) (hne : u₁ ≠ u₂) (h₁ : u₁ < w₀.pool.numBufs)
    (h₂ : u₂ < w₀.pool.numBufs) (hp₁ : (w₀.pool.bufTable u₁).pinCnt = 0) (hp₂ : (w₀.pool.bufTable u₂).pinCnt = 0)
    {x : HeapFileScan × World} (hx : (Part1.scanLts w₀).Reachable x) :
    (∀ k, pinOf x.2.pool k = pinOf w₀.pool k + Part1.HeapFile.held x.1.toHeapFile k) ∧
      ∀ k, pinOf (Part1.HeapFileScan.destructor x.1 x.2).pool k = pinOf w₀.pool k :=
  have hH := (Part1.holds_inductive (Pinning.start hw hne h₁ h₂ hp₁ hp₂)).reachable hx
  ⟨hH.pinning.ledger, hH.destructor⟩

/-- Open `twoPageWorld`'s file `t` with the part_001 scan, start a scan with no
filter, then end it. -/
theorem Part1.scan_handle_pins_two_pages :
    let o : Status × HeapFileScan × World := Part1.HeapFileScan.new twoPageWorld "t"
    let st : Status × HeapFileScan × World := Part1.HeapFileScan.startScan o.2.1 o.2.2 0 0 .STRING none .EQ
    let e : Status × HeapFileScan × World := Part1.HeapFileScan.endScan st.2.1 st.2.2
    (∀ k, pinOf e.2.2.pool k = pinOf twoPageWorld.pool k + Part1.HeapFile.held e.2.1.toHeapFile k) ∧
      ∀ k, pinOf (Part1.HeapFileScan.destructor e.2.1 e.2.2).pool k = pinOf twoPageWorld.pool k :=
  Part1.scan_handle_pins (⟨init_inv (by decide) _, ⟨fun _ => rfl, fun _ => rfl⟩⟩ : twoPageWorld.Sound)
    (by decide : (0 : Nat) ≠ 1) (by decide) (by decide) rfl rfl
    ⟨_, [.startScan 0 0 .STRING none .EQ, .endScan], ⟨"t", rfl⟩, .cons rfl (.cons rfl (.nil _))⟩

end Client

/-! ## Creating a heap file -/

/-- mirrors part_001:33-77: on every path the pages `formatHeapFile` allocates
are unpinned again. -/
theorem Part1.formatHeapFile_pins {w : World} (hw : w.Sound) (f : FileId) (k : Key) :
    pinOf (Part1.formatHeapFile w f).2.pool k = pinOf w.pool k := by
  unfold Part1.formatHeapFile
  rcases h1 : w.allocPage (some f) with ⟨e | ⟨hdrNo, hdrFrame⟩, w1⟩
  · exact congrFun (hw.allocPage_error h1).2 k
  obtain ⟨hw1, hp1⟩ := hw.allocPage_ok h1
  have hh : 0 < pinOf w1.pool (some f, hdrNo) := by rw [hp1]; simp [onePin]
  dsimp only
  rcases h2 : w1.allocPage (some f) with ⟨e | ⟨dataNo, dataFrame⟩, w2⟩
  · obtain ⟨hw2, hp2⟩ := hw1.allocPage_error h2
    obtain ⟨w3, hu, -, hp3⟩ := hw2.unPinPage (by rwa [hp2]) false
    simp only [hu]
    have := hp3 k
    rw [hp2, hp1] at this
    unfold onePin at this; omega
  obtain ⟨hw2, hp2⟩ := hw1.allocPage_ok h2
  let w4 := (w2.setFrame dataFrame (.data (DataPage.init dataNo))).setFrame hdrFrame (.hdr ⟨2, 0, dataNo, dataNo⟩)
  have hw4 : w4.Sound := (hw2.setFrame _ _).setFrame _ _
  have hp4 : ∀ k, pinOf w4.pool k = pinOf w1.pool k + onePin (some f, dataNo) k := hp2
  obtain ⟨w5, hu5, hw5, hp5⟩ := hw4.unPinPage (f := f) (q := dataNo) (by rw [hp4]; simp [onePin]) true
  obtain ⟨w6, hu6, -, hp6⟩ := hw5.unPinPage (f := f) (q := hdrNo)
    (by have := hp5 (some f, hdrNo); rw [hp4] at this; omega) true
  simp only [hu5, hu6]
  have := hp6 k
  have := hp5 k
  rw [hp4, hp1] at this
  omega

/-- part_001's `createHeapFile` leaves every page's pins as they were, whatever
the name and the pool, while every file read and write succeeds: each page it
allocates is unpinned again on every path, failed allocations included. -/
theorem Part1.createHeapFile_keeps_pins {w : World} (hw : w.Sound) (fileName : String) (k : Key) :
    pinOf (Part1.createHeapFile w fileName).2.pool k = pinOf w.pool k := by
  unfold Part1.createHeapFile
  split
  · rfl
  split
  · rfl
  split
  · rfl
  split
  · split
    · refine Part1.formatHeapFile_pins ?_ _ k
      exact ⟨hw.inv, hw.rw⟩
    · rfl
  · rfl

/-- The one-frame pool of `emptyWorld 1`. -/
theorem Part1.createHeapFile_keeps_pins_one_frame :
    (emptyWorld 1).Sound ∧
      ∀ k, pinOf (Part1.createHeapFile (emptyWorld 1) "t").2.pool k = pinOf (emptyWorld 1).pool k :=
  have hw : (emptyWorld 1).Sound := ⟨init_inv (by decide) _, ⟨fun _ => rfl, fun _ => rfl⟩⟩
  ⟨hw, Part1.createHeapFile_keeps_pins hw "t"⟩

end Minirel
