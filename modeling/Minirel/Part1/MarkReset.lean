import Minirel.Heap.MarkReset
import Minirel.Part1.ScanRun
import Minirel.Part1.Ledger

/-!
# Marking and resetting the other version's scan (part_001:291-318)

part_001's `markScan` refuses (BADSCANID) while `curRec` is before the current
page's first record or no page is pinned, and otherwise copies `curPageNo` and
`curRec` into the mark. `resetScan` refuses while there is no mark; on the
marked page it restores `curRec`, elsewhere it unpins the current page, moves
to the mark and reads the marked page again.

As for stage4 (`Minirel.Heap.MarkReset`), a mark taken on page `p` of the chain
is a position `Part1.ScanOn` describes without the world, and no call of the
walk reads or writes the mark.

* `Part1.scanLoop_marks`, `Part1.scanNext_marks`, `Part1.afterScans_marks`: the
  walk keeps the mark.
* `Part1.ScanOn.markScan`, `Part1.ScanOn.resetScan`: marking changes nothing
  the walk reads, and from anywhere on the walk `resetScan` returns OK and the
  scan stands at the mark again.
* `Part1.Scanning.replay`: after any number of calls, resetting restores the
  matching records still to come at the mark.
* `Part1.scanNext_curRec`, `Part1.Scanning.markScan_ok`: a call that returns a
  record leaves `curRec` on it, so on a page that is not negative `markScan`
  then returns OK.

**Results.**
* `Part1.markScan_resetScan_replays`: on a file whose data pages form a chain
  of pages that are not negative, with every file read and write succeeding,
  after any `i` calls of `scanNext` `markScan` either refuses and changes
  nothing, or marks, and it marks when the call before it returned a record;
  then after any `k` more calls `resetScan` returns OK, and any `j` calls after
  it return what `j` calls right after the mark return.
* `Part1.resetScan_failed_read_strands`: when the read of the marked page fails
  after the current page was unpinned (the pool is full), `resetScan` returns
  with `curPage` still on the old frame and `curPageNo` on the marked page. A
  handle whose pins matched its fields before the call then counts a pin on the
  marked page that the pool does not hold.
-/
namespace Minirel

open BufMgr

/-! ## The walk keeps the mark -/

theorem Part1.scanLoop_marks : ∀ (n : Nat) {s : HeapFileScan} {w : World} {r : Except Status RID}
    {s' : HeapFileScan} {w' : World}, Part1.HeapFileScan.scanLoop n s w = some (r, s', w') →
    s'.markedPageNo = s.markedPageNo ∧ s'.markedRec = s.markedRec
  | 0, _, _, _, _, _, h => by cases h
  | n + 1, _, _, _, _, _, h => by
    simp only [Part1.HeapFileScan.scanLoop] at h
    repeat' split at h
    all_goals first | (cases h; exact ⟨rfl, rfl⟩) | (have h' := Part1.scanLoop_marks n h; exact h')

theorem Part1.scanNext_marks {n : Nat} {s : HeapFileScan} {w : World} {r : Except Status RID} {s' : HeapFileScan}
    {w' : World} (h : Part1.HeapFileScan.scanNext n s w = some (r, s', w')) :
    s'.markedPageNo = s.markedPageNo ∧ s'.markedRec = s.markedRec := by
  simp only [Part1.HeapFileScan.scanNext] at h
  repeat' split at h
  all_goals first | (cases h; exact ⟨rfl, rfl⟩) | (have h' := Part1.scanLoop_marks n h; exact h')

theorem Part1.afterScans_marks {n : Nat} : ∀ (k : Nat) {s : HeapFileScan} {w : World} {s' : HeapFileScan}
    {w' : World}, Part1.afterScans n k s w = some (s', w') →
    s'.markedPageNo = s.markedPageNo ∧ s'.markedRec = s.markedRec
  | 0, _, _, _, _, h => by cases h; exact ⟨rfl, rfl⟩
  | k + 1, _, _, _, _, h => by
    simp only [Part1.afterScans] at h
    split at h
    · next hs =>
      obtain ⟨h₁, h₂⟩ := Part1.scanNext_marks hs
      obtain ⟨h₃, h₄⟩ := Part1.afterScans_marks k h
      exact ⟨h₃.trans h₁, h₄.trans h₂⟩
    · cases h

/-- One call: `afterScans` keeps the position `scanNext` left. -/
theorem Part1.afterScans_one {n : Nat} {s : HeapFileScan} {w : World} {s' : HeapFileScan} {w' : World}
    (h : Part1.afterScans n 1 s w = some (s', w')) : ∃ r, Part1.HeapFileScan.scanNext n s w = some (r, s', w') := by
  simp only [Part1.afterScans] at h
  split at h
  next r s₁ w₁ hn =>
    obtain ⟨rfl, rfl⟩ : s₁ = s' ∧ w₁ = w' := by simpa only [Option.some.injEq, Prod.mk.injEq] using h
    exact ⟨r, hn⟩
  next => cases h

/-- A call of the loop that returns a record leaves `curRec` on it. -/
theorem Part1.scanLoop_curRec : ∀ (n : Nat) {s : HeapFileScan} {w : World} {rid : RID} {s' : HeapFileScan}
    {w' : World}, Part1.HeapFileScan.scanLoop n s w = some (.ok rid, s', w') → s'.curRec = rid
  | 0, _, _, _, _, _, h => by cases h
  | n + 1, _, _, _, _, _, h => by
    simp only [Part1.HeapFileScan.scanLoop] at h
    repeat' split at h
    all_goals first | (cases h; rfl) | exact Part1.scanLoop_curRec n h | cases h

theorem Part1.scanNext_curRec {n : Nat} {s : HeapFileScan} {w : World} {rid : RID} {s' : HeapFileScan}
    {w' : World} (h : Part1.HeapFileScan.scanNext n s w = some (.ok rid, s', w')) : s'.curRec = rid := by
  simp only [Part1.HeapFileScan.scanNext] at h
  repeat' split at h
  all_goals first | exact Part1.scanLoop_curRec n h | cases h

variable {C : ScanCtx}

namespace Part1.ScanOn

variable {s : HeapFileScan} {w : World} {p : Int} {R : List (Nat × Record)} {qs : List Int}

/-- Marking changes nothing the walk reads. -/
theorem markScan (h : Part1.ScanOn C s w p R qs) : Part1.ScanOn C (Part1.HeapFileScan.markScan s).2 w p R qs := by
  unfold Part1.HeapFileScan.markScan
  split
  · exact h
  · exact ⟨⟨h.reading, h.file, h.frame, h.curPageNo, h.clean, h.keep, h.ahead, h.ne, h.numbered, h.chain⟩,
      h.header, h.headerPageNo, h.hdrClean, h.onPage⟩

/-- `markScan` on the chain either refuses and changes nothing, or marks the
page `p`, with `curRec` a slot of `p`. -/
theorem markScan_cases (h : Part1.ScanOn C s w p R qs) :
    (Part1.HeapFileScan.markScan s).1 = .BADSCANID ∧ (Part1.HeapFileScan.markScan s).2 = s ∨
      (Part1.HeapFileScan.markScan s).1 = .OK ∧ 0 ≤ p ∧ s.curRec.pageNo = p ∧ s.curRec.slotNo ≠ -1 ∧
        (Part1.HeapFileScan.markScan s).2.markedPageNo = p ∧
        (Part1.HeapFileScan.markScan s).2.markedRec = s.curRec := by
  unfold Part1.HeapFileScan.markScan
  split
  · exact .inl ⟨rfl, rfl⟩
  · next hm =>
    obtain ⟨j, hc, -⟩ := h.frame
    have hp : 0 ≤ s.curRec.pageNo := by simp only [hc, Option.isNone_some] at hm; omega
    rcases h.onPage with hr | ⟨hp', hs⟩
    · rw [hr] at hp; exact absurd hp (by decide)
    · exact .inr ⟨rfl, hp' ▸ hp, hp', hs, h.curPageNo, rfl⟩

/-- A mark on page `p` of the chain, at the slot `curRec` of the position `s`:
from anywhere on the walk `resetScan` returns OK and the scan stands at the mark
again. -/
theorem resetScan (hm : Part1.ScanOn C s w p R qs) (hp : 0 ≤ p) (hon : s.curRec.pageNo = p ∧ s.curRec.slotNo ≠ -1)
    {m : Nat} {rem₁ : List (RID × Record)} {s₁ : HeapFileScan} {w₁ : World} (h₁ : Part1.Scanning C m rem₁ s₁ w₁)
    (hmp : s₁.markedPageNo = p) (hmr : s₁.markedRec = s.curRec) :
    ∃ s₂ w₂, Part1.HeapFileScan.resetScan s₁ w₁ = (.OK, s₂, w₂) ∧ Part1.ScanOn C s₂ w₂ p R qs := by
  obtain ⟨p', R', qs', h', -, -⟩ := h₁
  obtain ⟨j₁, hc, -⟩ := h'.frame
  have hp0 : ¬ p < 0 := by omega
  by_cases hpp : p' = p
  · subst hpp
    have hpos : ({ s₁ with curRec := s₁.markedRec } : HeapFileScan).slotPos = s.slotPos := by
      simp only [HeapFileScan.slotPos, hmr]
    refine ⟨{ s₁ with curRec := s₁.markedRec }, w₁, ?_,
      ⟨⟨h'.reading, h'.file, h'.frame, h'.curPageNo, h'.clean, h'.keep, hpos ▸ hm.ahead, hm.ne, hm.numbered,
        hm.chain⟩, h'.header, h'.headerPageNo, h'.hdrClean, .inr (hmr ▸ hon)⟩⟩
    simp only [Part1.HeapFileScan.resetScan, hmp, hp0, hc, h'.curPageNo, Option.isNone_some, ne_eq,
      not_true_eq_false, Bool.false_eq_true, or_self, if_false]
  · obtain ⟨i, hi, hfi⟩ := h'.header
    obtain ⟨w₁', hu, hR⟩ := h'.unpin
    obtain ⟨j, w₂, hr, h₂⟩ := hm.toScanAt.reread hR h'.file h'.keep
    rw [h'.file] at hr
    have hfi' : w₁'.pool.hashTable.find C.hdrKey = some (i : Int) := by
      rw [h'.reading.hashTable_unPinPage hu]; exact hfi
    refine ⟨_, w₂, ?_, h₂, ⟨i, hi, hR.find_readPage (by simp [onePin]) hfi' hr⟩, h'.headerPageNo, h'.hdrClean,
      .inr hon⟩
    simp only [Part1.HeapFileScan.resetScan, hmp, hmr, hp0, hc, h'.curPageNo, h'.file, h'.clean,
      Part1.HeapFile.unpinCur, Option.isNone_some, ne_eq, Ne.symm hpp, not_false_eq_true, or_true, if_true,
      if_false, hu, hr]

end Part1.ScanOn

theorem Part1.Scanning.markScan {m : Nat} {rem : List (RID × Record)} {s : HeapFileScan} {w : World}
    (h : Part1.Scanning C m rem s w) : Part1.Scanning C m rem (Part1.HeapFileScan.markScan s).2 w :=
  let ⟨p, R, qs, hs, hr, hm⟩ := h
  ⟨p, R, qs, hs.markScan, hr, hm⟩

/-- Mark, make `k` calls, reset: the scan is back where it was marked, with the
same matching records still to come. -/
theorem Part1.Scanning.replay {m : Nat} {rem : List (RID × Record)} {s : HeapFileScan} {w : World}
    (h : Part1.Scanning C m rem s w) (hmk : (Part1.HeapFileScan.markScan s).1 = .OK) (k : Nat) :
    ∃ s₁ w₁ s₂ w₂, Part1.afterScans m k (Part1.HeapFileScan.markScan s).2 w = some (s₁, w₁) ∧
      Part1.HeapFileScan.resetScan s₁ w₁ = (.OK, s₂, w₂) ∧ Part1.Scanning C m rem s₂ w₂ := by
  obtain ⟨p, R, qs, hs, hr, hlt⟩ := h
  rcases hs.markScan_cases with ⟨he, -⟩ | ⟨-, hp, hon₁, hon₂, hmp, hmr⟩
  · rw [he] at hmk; cases hmk
  obtain ⟨s₁, w₁, ha, h₁⟩ := Part1.afterScans_scanning k (Part1.Scanning.markScan ⟨p, R, qs, hs, hr, hlt⟩)
  obtain ⟨hmp₁, hmr₁⟩ := Part1.afterScans_marks k ha
  obtain ⟨s₂, w₂, hreset, h₂⟩ := hs.resetScan hp ⟨hon₁, hon₂⟩ h₁ (hmp₁.trans hmp) (hmr₁.trans hmr)
  exact ⟨s₁, w₁, s₂, w₂, ha, hreset, p, R, qs, h₂, hr, hlt⟩

/-- After a call that returns a record on a page that is not negative,
`markScan` returns OK: the scan stands on that record, on a pinned page. -/
theorem Part1.Scanning.markScan_ok {m : Nat} {rem : List (RID × Record)} {s : HeapFileScan} {w : World}
    (h : Part1.Scanning C m rem s w) (hnn : ∀ x ∈ rem, 0 ≤ x.1.pageNo) {rid : RID} {s' : HeapFileScan}
    {w' : World} (hn : Part1.HeapFileScan.scanNext m s w = some (.ok rid, s', w')) :
    (Part1.HeapFileScan.markScan s').1 = .OK := by
  obtain ⟨s'', w'', hn', p, R, qs, hon, -, -⟩ := Part1.scanNext_answers h
  rw [hn] at hn'
  cases rem with
  | nil => cases hn'
  | cons x rem =>
    obtain ⟨rfl, rfl, rfl⟩ : rid = x.1 ∧ s' = s'' ∧ w' = w'' := by
      simpa only [answer, Option.some.injEq, Prod.mk.injEq, Except.ok.injEq] using hn'
    obtain ⟨j, hc, -⟩ := hon.frame
    have hp := hnn x (List.mem_cons_self _ _)
    rw [← Part1.scanNext_curRec hn] at hp
    simp [Part1.HeapFileScan.markScan, hc, not_lt.2 hp]

/-! ## From the constructor -/

section Start

variable {w₀ : World} {g : Ghost} {u₁ u₂ : Nat} {name : String} {f : FileId} {p : Int} {qs : List Int}

/-- A part_001 `HeapFileScan` opened on a file whose data pages form a chain of
pages that are not negative, as in `Part1.scan_hands_out_matches`, with no
filter or an accepted one. After any `i` calls of `scanNext`, `markScan`
either refuses with BADSCANID and changes nothing, or returns OK; then after
any `k` more calls `resetScan` returns OK, and `j` calls after it return what
`j` calls right after the mark return, whatever `i`, `k` and `j`. When the
next call returns a record, `markScan` after it returns OK. -/
theorem Part1.markScan_resetScan_replays (hrw : w₀.io.ReadWriteOk) (hc : ContentInv (w₀.pool, g))
    (hfresh : ∀ q, g.fresh (some f, q) = false) (hne : u₁ ≠ u₂) (h₁ : u₁ < w₀.pool.numBufs)
    (h₂ : u₂ < w₀.pool.numBufs) (hp₁ : (w₀.pool.bufTable u₁).pinCnt = 0) (hp₂ : (w₀.pool.bufTable u₂).pinCnt = 0)
    (hopen : w₀.db.openFile name = .ok f) (h0 : 0 ≤ w₀.db.first f)
    (hchain : Chain (w₀.dataPage f) (w₀.header f).firstPage (p :: qs)) (hnn : ∀ q ∈ p :: qs, 0 ≤ q)
    (offset length : Int) (type : Datatype) (filter : Option (List UInt8)) (op : Operator)
    (hparm : filter = none ∨ HeapFileScan.ScanParmOk offset length type) :
    let o : Status × HeapFileScan × World := Part1.HeapFileScan.new w₀ name
    let st : Status × HeapFileScan × World := Part1.HeapFileScan.startScan o.2.1 o.2.2 offset length type filter op
    ∀ n, scanBound (w₀.dataPage f) (p :: qs) ≤ n → ∀ i k j, ∃ s w, Part1.afterScans n i st.2.1 st.2.2 = some (s, w) ∧
      (∀ rid s' w', Part1.HeapFileScan.scanNext n s w = some (.ok rid, s', w') →
        (Part1.HeapFileScan.markScan s').1 = .OK) ∧
      let mk : Status × HeapFileScan := Part1.HeapFileScan.markScan s
      ((mk.1 = .BADSCANID ∧ mk.2 = s) ∨
        mk.1 = .OK ∧ ∃ (s₁ : HeapFileScan) (w₁ : World) (s₂ : HeapFileScan) (w₂ : World)
          (as : List (Except Status RID)), Part1.afterScans n k mk.2 w = some (s₁, w₁) ∧
          Part1.HeapFileScan.resetScan s₁ w₁ = (.OK, s₂, w₂) ∧ Part1.scanAnswers n j mk.2 w = some as ∧
          Part1.scanAnswers n j s₂ w₂ = some as) := by
  intro o st n hn i k j
  let C₀ : ScanCtx := ⟨⟨w₀, f, fun _ => true⟩, g, u₁, u₂, hfresh, hne⟩
  obtain ⟨-, h0'⟩ := Part1.ScanOn.new (C := C₀) (Reading.start hrw hc h₁ h₂ hp₁ hp₂) hopen h0 rfl hchain
  obtain ⟨-, h1⟩ := h0'.startScan hchain op hparm
  obtain ⟨s, w, ha, hs⟩ := Part1.afterScans_scanning i (⟨p, _, qs, h1, rfl,
    Nat.lt_of_lt_of_le (Nat.lt_of_lt_of_eq (Nat.lt_succ_self _) (WalkCtx.measure_start p qs)) hn⟩ :
    Part1.Scanning { C₀ with keep := HeapFileScan.selects offset length type filter op } n _ st.2.1 st.2.2)
  have hpos : ∀ x ∈ ((chainRecords (w₀.dataPage f) (p :: qs)).filter
      fun x => HeapFileScan.selects offset length type filter op x.2).drop i, 0 ≤ x.1.pageNo := fun x hx =>
    hnn _ (pageNo_mem_of_mem_chainRecords (List.mem_of_mem_filter (List.mem_of_mem_drop hx)))
  refine ⟨s, w, ha, fun rid s' w' hn' => hs.markScan_ok hpos hn', ?_⟩
  obtain ⟨p', R', qs', hon, -, -⟩ := id hs
  rcases hon.markScan_cases with hbad | ⟨hok, -⟩
  · exact .inl hbad
  obtain ⟨s₁, w₁, s₂, w₂, hk, hreset, hs₂⟩ := hs.replay hok k
  exact .inr ⟨hok, s₁, w₁, s₂, w₂, _, hk, hreset, hs.markScan.answers j, hs₂.answers j⟩

/-- `twoPageWorld`'s file `t`, scanned by the part_001 version with no filter:
the first call returns the record of page 1, and `markScan` after it returns
OK; then any `k` more calls, `resetScan`, and `j` calls replay the `j` calls
right after the mark. -/
theorem Part1.markScan_resetScan_replays_marked :
    let o : Status × HeapFileScan × World := Part1.HeapFileScan.new twoPageWorld "t"
    let st : Status × HeapFileScan × World := Part1.HeapFileScan.startScan o.2.1 o.2.2 0 0 .STRING none .EQ
    let n : Nat := scanBound (twoPageWorld.dataPage 0) [1, 2]
    ∀ k j, ∃ s w, Part1.afterScans n 1 st.2.1 st.2.2 = some (s, w) ∧
      (Part1.HeapFileScan.markScan s).1 = .OK ∧
      ∃ (s₁ : HeapFileScan) (w₁ : World) (s₂ : HeapFileScan) (w₂ : World)
        (as : List (Except Status RID)), Part1.afterScans n k (Part1.HeapFileScan.markScan s).2 w = some (s₁, w₁) ∧
        Part1.HeapFileScan.resetScan s₁ w₁ = (.OK, s₂, w₂) ∧
        Part1.scanAnswers n j (Part1.HeapFileScan.markScan s).2 w = some as ∧
        Part1.scanAnswers n j s₂ w₂ = some as := by
  intro o st n k j
  have h := Part1.markScan_resetScan_replays (g := ⟨fun _ => false, fun _ => false⟩)
    (⟨fun _ => rfl, fun _ => rfl⟩ : twoPageWorld.io.ReadWriteOk)
    (contentInv_inductive.init _ ⟨⟨3, _, by decide, rfl⟩, rfl⟩) (fun _ => rfl) (by decide : 0 ≠ 1)
    (by decide) (by decide) rfl rfl (rfl : twoPageWorld.db.openFile "t" = .ok 0) (by decide)
    (.cons (by decide) rfl (.cons (by decide) rfl .nil)) (by decide) 0 0 .STRING none .EQ (.inl rfl) n
    (Nat.le_refl _)
  obtain ⟨s₀, w₀, h0, hmk, -⟩ := h 0 k j
  obtain ⟨s, w, h1, -, hrep⟩ := h 1 k j
  cases h0
  obtain ⟨r, hn⟩ := Part1.afterScans_one h1
  have hr : (some (r, s, w)).map Prod.fst = some (Except.ok ⟨1, 1⟩) := by rw [← hn]; decide
  cases hr
  have hok := hmk _ _ _ hn
  exact ⟨s, w, h1, hok, (hrep.resolve_left fun hb => by rw [hb.1] at hok; cases hok).2⟩

end Start

/-! ## A read of the marked page that fails -/

/-- mirrors part_001:303-313 when the read of the marked page fails: the
current page is already unpinned and `curPageNo` moved to the mark, and
`resetScan` returns with `curPage` still on the old frame. A handle whose pins
were those its fields count (`Part1.HeapFile.held`) before the call counts
afterwards a pin on the marked page that the pool does not hold, and the pool
has lost the pin on the page the frame still holds. -/
theorem Part1.resetScan_failed_read_strands {w w' : World} {s s' : HeapFileScan} {f : FileId} {st : Status}
    {base : Key → Nat} (hw : w.Sound) (hf : s.filePtr = some f)
    (hl : ∀ k, pinOf w.pool k = base k + Part1.HeapFile.held s.toHeapFile k) (hm : 0 ≤ s.markedPageNo)
    (hc : s.curPage.isSome) (hne : s.markedPageNo ≠ s.curPageNo)
    (hr : Part1.HeapFileScan.resetScan s w = (st, s', w')) (hst : st ≠ .OK) :
    s'.curPage = s.curPage ∧ s'.curPageNo = s.markedPageNo ∧
      ∀ k, pinOf w'.pool k + onePin (some f, s.markedPageNo) k = base k + Part1.HeapFile.held s'.toHeapFile k := by
  obtain ⟨j, hj⟩ := Option.isSome_iff_exists.1 hc
  have hpos : 0 < pinOf w.pool (some f, s.curPageNo) := by
    rw [hl]; simp only [Part1.HeapFile.held, hj, hf, Option.isSome_some, if_true, onePin]; omega
  obtain ⟨w1, hu, hw1, hp1⟩ := hw.unPinPage hpos s.curDirtyFlag
  have hm' : ¬ s.markedPageNo < 0 := by omega
  simp only [Part1.HeapFileScan.resetScan, hm', hj, hne, hf, Part1.HeapFile.unpinCur, hu, Option.isNone_some,
    Bool.false_eq_true, ne_eq, not_false_eq_true, or_true, if_true, if_false] at hr
  rcases hrd : w1.readPage (some f) s.markedPageNo with ⟨e | cp, w2⟩ <;> rw [hrd] at hr
  · obtain ⟨rfl, rfl, rfl⟩ : e = st ∧ _ = s' ∧ w2 = w' := by simpa only [Prod.mk.injEq] using hr
    have hp2 := (hw1.readPage_error hst hrd).2
    refine ⟨hj.symm, rfl, fun k => ?_⟩
    have h1 := hp1 k
    have h0 := hl k
    rw [hp2]
    simp only [Part1.HeapFile.held, hj, hf, Option.isSome_some, if_true] at h0 ⊢
    omega
  · exact absurd (congrArg Prod.fst hr).symm hst

/-- `twoPageWorld`'s file `t` scanned by the part_001 version: marked on page 1
after one call, then on page 2 after another. A second client pins page 2 and
page 3, so every frame is pinned. `resetScan` unpins page 2 and fails to read
page 1 (BUFFEREXCEEDED); the scan is left on page 2's frame with `curPageNo` 1,
and its `endScan` then answers HASHNOTFOUND. -/
theorem Part1.resetScan_failed_read_strands_full_pool :
    let x₀ : HeapFileScan × World := ((Part1.HeapFileScan.new twoPageWorld "t").2.1,
      (Part1.HeapFileScan.new twoPageWorld "t").2.2)
    let x₁ : HeapFileScan × World := ((Part1.ScanCall.startScan 0 0 .STRING none .EQ).run x₀.1 x₀.2).getD x₀
    let x₂ : HeapFileScan × World := ((Part1.ScanCall.scanNext 4).run x₁.1 x₁.2).getD x₁
    let x₃ : HeapFileScan × World := (Part1.ScanCall.markScan.run x₂.1 x₂.2).getD x₂
    let x₄ : HeapFileScan × World := ((Part1.ScanCall.scanNext 4).run x₃.1 x₃.2).getD x₃
    let w : World := ((x₄.2.readPage (some 0) 2).2.readPage (some 0) 3).2
    let r : Status × HeapFileScan × World := Part1.HeapFileScan.resetScan x₄.1 w
    r.1 = .BUFFEREXCEEDED ∧ (Part1.HeapFileScan.endScan r.2.1 r.2.2).1 = .HASHNOTFOUND ∧
      r.2.1.curPage = x₄.1.curPage ∧ r.2.1.curPageNo = x₄.1.markedPageNo ∧
      ∀ k, pinOf r.2.2.pool k + onePin (some 0, x₄.1.markedPageNo) k =
        pinOf twoPageWorld.pool k + onePin (some 0, 2) k + onePin (some 0, 3) k +
          Part1.HeapFile.held r.2.1.toHeapFile k := by
  intro x₀ x₁ x₂ x₃ x₄ w r
  have step : ∀ (c : Part1.ScanCall) (x : HeapFileScan × World), (c.run x.1 x.2).isSome →
      (Part1.scanLts twoPageWorld).step x c ((c.run x.1 x.2).getD x) := fun c x h =>
    (Option.getD_of_ne_none (Option.ne_none_iff_isSome.2 h) x).symm
  have hb := (Part1.holds_inductive (Pinning.start (⟨init_inv (by decide) _, ⟨fun _ => rfl, fun _ => rfl⟩⟩ :
    twoPageWorld.Sound) (by decide : (0 : Nat) ≠ 1) (by decide) (by decide) rfl rfl)).reachable
    (⟨x₀, _, ⟨"t", rfl⟩, .cons (step (.startScan 0 0 .STRING none .EQ) x₀ rfl)
      (.cons (step (.scanNext 4) x₁ (by decide)) (.cons (step .markScan x₂ rfl)
      (.cons (step (.scanNext 4) x₃ (by decide)) (.nil _))))⟩ : (Part1.scanLts twoPageWorld).Reachable x₄)
  obtain ⟨hw1, hp1⟩ := hb.pinning.sound.readPage_ok (f := 0) (q := 2) (j := 1) (by decide)
  obtain ⟨hw2, hp2⟩ := hw1.readPage_ok (f := 0) (q := 3) (j := 0) (by decide)
  have h1 : r.1 = .BUFFEREXCEEDED := by decide
  have hr : Part1.HeapFileScan.resetScan x₄.1 w = (r.1, r.2.1, r.2.2) :=
    ((congrArg (Prod.mk r.1) (Prod.eta r.2)).trans (Prod.eta r)).symm
  refine ⟨h1, by decide, Part1.resetScan_failed_read_strands hw2 (by decide) (fun k => ?_) (by decide) (by decide)
    (by decide) hr (by rw [h1]; decide)⟩
  rw [hp2, hp1, hb.pinning.ledger]
  omega

end Minirel
