import Minirel.Heap.ScanRun
import Minirel.Part1.Ledger

/-!
# The other version's `getRecord` reads the stored file

part_001's `HeapFile::getRecord` (part_001:194-222) rejects a negative page
number and slot 0 with BADRID. Otherwise it moves the handle to the RID's page,
unpinning the current page and reading the new one, and asks that page for the
slot. It sets `curPageNo` as soon as the read succeeds, so a slot the page does
not have leaves the handle on the page it pins.

`Part1.storedRecord w₀ f rid` is what a fetch is to answer: the answer of the
page `rid.pageNo` as the world `w₀` stores file `f`, whatever that page holds.

* `Part1.Fetching C h w`: a read-only session (`Reading`) whose pins are those
  the handle's fields count (`Part1.HeapFile.held`), with the header page and
  the current page, if any, pinned in the frames the handle points to.
* `unpinCur`, `readCur`, `moveTo`: unpinning the current page succeeds, and
  then reading any page of the file succeeds.
* `Fetching.getRecord`: `getRecord` answers `storedRecord` and keeps
  `Fetching`; `Fetching.getRecords` by induction on the RIDs.
* `Fetching.new`, `Fetching.destructor`: the constructor opens the session and
  the destructor leaves the pins of its start.

**Results.**
* `Part1.getRecords_answer_stored`: a part_001 `HeapFile` opened on a file, in a
  pool where every file read and write succeeds, answers any sequence of RIDs,
  valid or not, with the stored records, and its destructor leaves the pins of
  the start. So a fetch through the pool is a lookup in the file.
-/
namespace Minirel

open BufMgr

/-- What a fetch of `rid` from file `f` answers when the file is as the world
`w₀` stores it: BADRID for a negative page number or slot 0, otherwise the
answer of the stored page `rid.pageNo` for the slot. -/
def Part1.storedRecord (w₀ : World) (f : FileId) (rid : RID) : Except Status Record :=
  if rid.pageNo < 0 ∨ rid.slotNo = 0 then .error .BADRID else (w₀.dataPage f rid.pageNo).getRecord rid

/-- A client's fetches through one part_001 handle: the answers of
`getRecord` for the RIDs in turn. -/
def Part1.getRecords : HeapFile → World → List RID → List (Except Status Record) × HeapFile × World
  | h, w, [] => ([], h, w)
  | h, w, rid :: rids =>
    let (x, h1, w1) := Part1.HeapFile.getRecord h w rid
    let (xs, h2, w2) := Part1.getRecords h1 w1 rids
    (x :: xs, h2, w2)

/-- A part_001 handle open on file `C.f` in a read-only session begun at `C.w₀`:
the pool's pins are the start's plus those the handle's fields count, the
header page and the current page (if any) are pinned in the frames the handle
points to, and both are clean. -/
structure Part1.Fetching (C : ScanCtx) (h : HeapFile) (w : World) : Prop where
  reading : Reading C.w₀ C.g C.u₁ C.u₂ (Part1.HeapFile.held h) w
  file : h.filePtr = some C.f
  header : ∃ j : Nat, h.headerPage = some (j : Int) ∧ w.pool.hashTable.find C.hdrKey = some (j : Int)
  headerPageNo : h.headerPageNo = C.w₀.db.first C.f
  hdrClean : h.hdrDirtyFlag = false
  frame : ∀ c, h.curPage = some c → ∃ j : Nat, c = j ∧ w.pool.hashTable.find (some C.f, h.curPageNo) = some (j : Int)
  clean : h.curDirtyFlag = false

namespace Part1.Fetching

variable {C : ScanCtx} {h : HeapFile} {w : World}

/-- The handle's pins: the header page's and the current page's. -/
theorem held_eq (hF : Part1.Fetching C h w) (k : Key) :
    Part1.HeapFile.held h k = onePin C.hdrKey k + if h.curPage.isSome then onePin (some C.f, h.curPageNo) k else 0 := by
  obtain ⟨j, hj, -⟩ := hF.header
  simp only [Part1.HeapFile.held, hj, hF.file, hF.headerPageNo, Option.isSome_some, if_true]
  rfl

/-- The current page shows the stored page. -/
theorem page_eq (hF : Part1.Fetching C h w) {c : Int} (hc : h.curPage = some c) : h.page w = C.pg h.curPageNo := by
  obtain ⟨j, rfl, hf⟩ := hF.frame c hc
  simp only [HeapFile.page, hc, Option.getD_some, World.frame_natCast]
  rw [← logical_of_find hf, hF.reading.logical _ (C.fresh _)]
  rfl

/-- `curRec` is not read. -/
theorem withCurRec (hF : Part1.Fetching C h w) (r : RID) : Part1.Fetching C { h with curRec := r } w :=
  ⟨hF.reading.congr fun _ => rfl, hF.file, hF.header, hF.headerPageNo, hF.hdrClean, hF.frame, hF.clean⟩

/-- Unpinning the current page, if any, succeeds; the handle then holds the
header page alone. -/
theorem unpinCur (hF : Part1.Fetching C h w) :
    ∃ w', Part1.HeapFile.unpinCur h w = (.OK, w') ∧ Part1.Fetching C { h with curPage := none } w' := by
  obtain ⟨i, hi, hfi⟩ := hF.header
  have hR : ∀ {w'}, Reading C.w₀ C.g C.u₁ C.u₂ (onePin C.hdrKey) w' → w'.pool.hashTable = w.pool.hashTable →
      Part1.Fetching C { h with curPage := none } w' := fun hR e =>
    ⟨hR.congr fun k => by
      simp only [Part1.HeapFile.held, hi, hF.file, hF.headerPageNo, Option.isSome_some, Option.isSome_none,
        if_true, Bool.false_eq_true, if_false, Nat.add_zero]; rfl,
      hF.file, ⟨i, hi, e ▸ hfi⟩, hF.headerPageNo, hF.hdrClean, nofun, hF.clean⟩
  unfold Part1.HeapFile.unpinCur
  cases hc : h.curPage with
  | none => exact ⟨w, rfl, hR (hF.reading.congr fun k => by rw [hF.held_eq, hc]; rfl) rfl⟩
  | some c =>
    obtain ⟨w', hu, hR'⟩ := hF.reading.unPinPage (f := C.f) (p := h.curPageNo)
      (by rw [hF.held_eq, hc]; simp [onePin])
    refine ⟨w', by rw [hF.file, hF.clean]; exact hu, hR (hR'.congr fun k => ?_) (hF.reading.hashTable_unPinPage hu)⟩
    rw [hF.held_eq, hc]
    simp only [Option.isSome_some, if_true]
    omega

/-- With the header page pinned alone, reading any page of the file succeeds
and makes it the current page. -/
theorem readCur (hF : Part1.Fetching C h w) (hc : h.curPage = none) (q : Int) :
    ∃ (j : Nat) (w' : World), w.readPage (some C.f) q = (.ok j, w') ∧
      Part1.Fetching C { h with curPage := some (j : Int), curPageNo := q, curDirtyFlag := false } w' := by
  obtain ⟨i, hi, hfi⟩ := hF.header
  have hk : ∀ k, Part1.HeapFile.held h k ≤ onePin C.hdrKey k := fun k => by
    rw [hF.held_eq, hc]; exact Nat.le_refl _
  obtain ⟨j, w', hr, hf, -, hR⟩ := hF.reading.readPage C.f q (.inr (hF.reading.free C.distinct hk))
  refine ⟨j, w', hr, hR.congr fun k => ?_, hF.file,
    ⟨i, hi, hF.reading.find_readPage (by rw [hF.held_eq]; simp only [onePin, if_true]; omega) hfi hr⟩,
    hF.headerPageNo, hF.hdrClean, fun c e => ⟨j, (Option.some.inj e).symm, hf⟩, rfl⟩
  rw [hF.held_eq, hc]
  simp only [Part1.HeapFile.held, hi, hF.file, hF.headerPageNo, Option.isSome_some, Option.isSome_none,
    if_true, Bool.false_eq_true, if_false, Nat.add_zero]
  rfl

/-- The move of `getRecord` to page `q` (part_001:200-215) succeeds. -/
theorem moveTo (hF : Part1.Fetching C h w) (q : Int) :
    ∃ (j : Nat) (w' : World), Part1.HeapFile.moveTo h w q =
      (.OK, { h with curPage := some (j : Int), curPageNo := q, curDirtyFlag := false }, w') ∧
      Part1.Fetching C { h with curPage := some (j : Int), curPageNo := q, curDirtyFlag := false } w' := by
  obtain ⟨w1, hu, hF1⟩ := hF.unpinCur
  obtain ⟨j, w2, hr, hF2⟩ := hF1.readCur rfl q
  exact ⟨j, w2, by simp only [Part1.HeapFile.moveTo, hu, hF.file, hr], hF2⟩

/-- mirrors part_001:194-222 (`HeapFile::getRecord`): for every RID the answer
is the stored record, and the handle stays open. -/
theorem getRecord (hF : Part1.Fetching C h w) (rid : RID) :
    (Part1.HeapFile.getRecord h w rid).1 = Part1.storedRecord C.w₀ C.f rid ∧
      Part1.Fetching C (Part1.HeapFile.getRecord h w rid).2.1 (Part1.HeapFile.getRecord h w rid).2.2 := by
  by_cases hb : rid.pageNo < 0 ∨ rid.slotNo = 0
  · rw [Part1.HeapFile.getRecord, Part1.storedRecord, if_pos hb, if_pos hb]
    exact ⟨rfl, hF⟩
  obtain ⟨h1, w1, hm, hF1, c, hc, hq⟩ : ∃ h1 w1, (if h.curPage.isNone ∨ h.curPageNo ≠ rid.pageNo then
      Part1.HeapFile.moveTo h w rid.pageNo else (.OK, h, w)) = (.OK, h1, w1) ∧ Part1.Fetching C h1 w1 ∧
      ∃ c, h1.curPage = some c ∧ h1.curPageNo = rid.pageNo := by
    split
    · obtain ⟨j, w', hm, hF'⟩ := hF.moveTo rid.pageNo
      exact ⟨_, w', hm, hF', j, rfl, rfl⟩
    · next hn =>
      obtain ⟨hn₁, hn₂⟩ := not_or.1 hn
      obtain ⟨c, hc⟩ := Option.ne_none_iff_exists'.1 fun (e : h.curPage = none) => hn₁ (by rw [e]; rfl)
      exact ⟨h, w, rfl, hF, c, hc, not_not.1 hn₂⟩
  have hp : (h1.page w1).getRecord rid = (C.w₀.dataPage C.f rid.pageNo).getRecord rid := by
    rw [hF1.page_eq hc, hq]; rfl
  simp only [Part1.HeapFile.getRecord, Part1.storedRecord, hb, if_false, hm, ne_eq, not_true_eq_false, ← hp]
  cases (h1.page w1).getRecord rid with
  | ok r => exact ⟨rfl, hF1.withCurRec rid⟩
  | error e => exact ⟨rfl, hF1⟩

/-- Fetches one after another: each answers the stored record. -/
theorem getRecords : ∀ (rids : List RID) {h : HeapFile} {w : World}, Part1.Fetching C h w →
    (Part1.getRecords h w rids).1 = rids.map (Part1.storedRecord C.w₀ C.f) ∧
      Part1.Fetching C (Part1.getRecords h w rids).2.1 (Part1.getRecords h w rids).2.2
  | [], _, _, hF => ⟨rfl, hF⟩
  | rid :: rids, h, w, hF => by
    obtain ⟨e1, hF1⟩ := hF.getRecord rid
    rcases hg : Part1.HeapFile.getRecord h w rid with ⟨x, h1, w1⟩
    rw [hg] at e1 hF1
    obtain ⟨e2, hF2⟩ := getRecords rids hF1
    rcases hg2 : Part1.getRecords h1 w1 rids with ⟨xs, h2, w2⟩
    rw [hg2] at e2 hF2
    simp only [Part1.getRecords, hg, hg2, List.map_cons]
    exact ⟨by rw [← e1, ← e2], hF2⟩

/-- mirrors part_001:86-146 (`HeapFile::HeapFile`): the constructor pins the
header page, and the first data page unless `firstPage` is -1. -/
theorem new {name : String} (hR : Reading C.w₀ C.g C.u₁ C.u₂ (fun _ => 0) C.w₀)
    (hopen : C.w₀.db.openFile name = .ok C.f) (h0 : 0 ≤ C.w₀.db.first C.f) :
    (Part1.HeapFile.new C.w₀ name).1 = .OK ∧
      Part1.Fetching C (Part1.HeapFile.new C.w₀ name).2.1 (Part1.HeapFile.new C.w₀ name).2.2 := by
  obtain ⟨j₁, w1, hr1, hf1, -, hR1⟩ := hR.readPage C.f (C.w₀.db.first C.f)
    (.inr (hR.free C.distinct fun _ => Nat.zero_le (onePin C.hdrKey _)))
  let h : HeapFile :=
    { HeapFile.initial with
      filePtr := some C.f
      headerPageNo := C.w₀.db.first C.f
      headerPage := some (j₁ : Int)
      hdrDirtyFlag := false
      curRec := NULLRID }
  have hF : Part1.Fetching C h w1 :=
    ⟨hR1.congr fun k => by rw [Nat.zero_add]; rfl, rfl, ⟨j₁, rfl, hf1⟩, rfl, rfl, nofun, rfl⟩
  have hlt : ¬ C.w₀.db.first C.f < 0 := by omega
  have e : Part1.HeapFile.new C.w₀ name = Part1.HeapFile.readFirst h w1 := by
    simp only [Part1.HeapFile.new, hopen, Db.getFirstPage, hlt, if_false, hr1]
  rw [e]
  unfold Part1.HeapFile.readFirst
  split
  · obtain ⟨j, w2, hr, hF2⟩ := hF.readCur rfl (h.hdr w1).firstPage
    rw [hF.file, hr]
    exact ⟨rfl, hF2⟩
  · exact ⟨rfl, hF⟩

/-- mirrors part_001:149-183 (`HeapFile::~HeapFile`): the destructor unpins
the current page and the header page, and leaves the pins of the start. -/
theorem destructor (hF : Part1.Fetching C h w) (k : Key) :
    pinOf (Part1.HeapFile.destructor h w).pool k = pinOf C.w₀.pool k := by
  obtain ⟨w1, hu, hF1⟩ := hF.unpinCur
  obtain ⟨i, hi, -⟩ := hF.header
  obtain ⟨w2, hu2, hR2⟩ := hF1.reading.unPinPage (f := C.f) (p := C.w₀.db.first C.f)
    (by rw [hF1.held_eq]; simp [onePin, WalkCtx.hdrKey])
  have hd : Part1.HeapFile.destructor h w = w2 := by
    simp only [Part1.HeapFile.destructor, hF.file, hu, hi, hF.headerPageNo, hF.hdrClean, hu2]
  rw [hd, hR2.ledger, hF1.held_eq]
  simp [onePin, WalkCtx.hdrKey]

end Part1.Fetching

/-- A part_001 `HeapFile` opened on a file, in a pool where every file read and
write succeeds, no page of the file is fresh and two frames are unpinned at the
start, then asked for any RIDs in turn: the constructor returns OK, each
`getRecord` answers what the file stores under the RID (BADRID for a negative
page or slot 0, else the stored page's answer for the slot, a bad slot
included), and the destructor leaves the pins of the start. -/
theorem Part1.getRecords_answer_stored {w₀ : World} {g : Ghost} {u₁ u₂ : Nat} {name : String} {f : FileId}
    (hrw : w₀.io.ReadWriteOk) (hc : ContentInv (w₀.pool, g))
    (hfresh : ∀ q, g.fresh (some f, q) = false) (hne : u₁ ≠ u₂) (h₁ : u₁ < w₀.pool.numBufs)
    (h₂ : u₂ < w₀.pool.numBufs) (hp₁ : (w₀.pool.bufTable u₁).pinCnt = 0) (hp₂ : (w₀.pool.bufTable u₂).pinCnt = 0)
    (hopen : w₀.db.openFile name = .ok f) (h0 : 0 ≤ w₀.db.first f) (rids : List RID) :
    let o : Status × HeapFile × World := Part1.HeapFile.new w₀ name
    let r : List (Except Status Record) × HeapFile × World := Part1.getRecords o.2.1 o.2.2 rids
    o.1 = .OK ∧ r.1 = rids.map (Part1.storedRecord w₀ f) ∧
      ∀ k, pinOf (Part1.HeapFile.destructor r.2.1 r.2.2).pool k = pinOf w₀.pool k := by
  intro o r
  let C₀ : ScanCtx := ⟨⟨w₀, f, fun _ => true⟩, g, u₁, u₂, hfresh, hne⟩
  obtain ⟨hok, hF⟩ := Part1.Fetching.new (C := C₀) (Reading.start hrw hc h₁ h₂ hp₁ hp₂) hopen h0
  obtain ⟨he, hF'⟩ := Part1.Fetching.getRecords rids hF
  exact ⟨hok, he, hF'.destructor⟩

/-- `twoPageWorld`'s file `t` asked for its two records, a slot page 1 does not
have, the header page's first slot and a negative page. -/
theorem Part1.getRecords_answer_stored_two_pages :
    let rids : List RID := [⟨2, 1⟩, ⟨1, 5⟩, ⟨1, 1⟩, ⟨0, 1⟩, ⟨-1, 1⟩]
    let o : Status × HeapFile × World := Part1.HeapFile.new twoPageWorld "t"
    let r : List (Except Status Record) × HeapFile × World := Part1.getRecords o.2.1 o.2.2 rids
    o.1 = .OK ∧ r.1 = rids.map (Part1.storedRecord twoPageWorld 0) ∧
      ∀ k, pinOf (Part1.HeapFile.destructor r.2.1 r.2.2).pool k = pinOf twoPageWorld.pool k :=
  Part1.getRecords_answer_stored (g := ⟨fun _ => false, fun _ => false⟩)
    (⟨fun _ => rfl, fun _ => rfl⟩ : twoPageWorld.io.ReadWriteOk)
    (contentInv_inductive.init _ ⟨⟨3, _, by decide, rfl⟩, rfl⟩) (fun _ => rfl) (by decide : 0 ≠ 1)
    (by decide) (by decide) rfl rfl (rfl : twoPageWorld.db.openFile "t" = .ok 0) (by decide) _

end Minirel
