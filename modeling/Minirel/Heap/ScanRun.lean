import Minirel.Heap.Reading
import Minirel.Heap.Scan
import Minirel.Heap.Walk

/-!
# A scan returns each matching record once, in order (spec §4.5)

A `HeapFileScan` opened on a file whose data pages form a chain, with every
file read and write succeeding, then `startScan`, then `scanNext` again and
again. The pages are read through the pool: what the scan sees is their
logical bytes, which stay those of the start (`Reading`).

* `ScanAt C s w p R qs`: the scan is on page `p`, pinned and clean, with the
  live slots `R` of `p` still ahead and the pages `qs` after `p`.
  `loop_consume`, `loop_advance`, `loop_finish`: one iteration of the loop
  hands out the next live slot, moves to the next page of the chain, or
  unpins the last page and returns FILEEOF. `new_scanAt` and `withFilter`: the
  constructor and `startScan` leave the scan before the first page's slots.
* `Scanning C m rem s w`: the scan stands on the chain with the matching
  records `rem` still to come, or past FILEEOF (`Exhausted`).
  `scanLoop_answers` (the step, by induction on the walk) and
  `scanNext_answers`: one call returns the next matching record, or FILEEOF,
  within `measure R qs + 1` iterations; `afterScans_scanning` (the run):
  after `k` calls the first `k` are handed out.

The matching records are those `HeapFileScan.selects` accepts for the
arguments of `startScan` (`ScanAt.startScan`).

**Results.**
* `scan_returns_matches`: call number `k` returns the `k`-th matching record
  of the chain, in chain and slot order, the records' RIDs are pairwise
  distinct, and every call after the last match returns FILEEOF. Each call
  runs at most one iteration per record and per page of the file. Before every
  call the pool's pins are those of the start plus the scan's: one on the
  header page, and one on the current data page exactly when `curPage` is not
  NULL.
* `scan_reads_page_minus_one`: the constructor does not check `firstPage`; on
  a file whose `firstPage` is -1 it reads page -1, and the scan hands out what
  the file layer holds there.
-/
namespace Minirel

open BufMgr
open HeapFileScan (scanLoop scanNext)

/-- What a scan works from: a walk, the clients' ghost and two frames unpinned
at the start. No page of the file is fresh, and the two frames differ. -/
structure ScanCtx extends WalkCtx where
  g : Ghost
  u₁ : Nat
  u₂ : Nat
  fresh : ∀ q, g.fresh (some f, q) = false
  distinct : u₁ ≠ u₂

/-- The scan's pins while it is on page `p`: the header page's and `p`'s. -/
def ScanCtx.held (C : ScanCtx) (p : Int) (k : Key) : Nat := onePin C.hdrKey k + onePin (some C.f, p) k

/-- The scan is on page `p` of its file's chain, pinned and clean, with the live
slots `R` of `p` still ahead and the pages `qs` after `p`. -/
structure ScanAt (C : ScanCtx) (s : HeapFileScan) (w : World) (p : Int) (R : List (Nat × Record))
    (qs : List Int) : Prop where
  reading : Reading C.w₀ C.g C.u₁ C.u₂ (C.held p) w
  file : s.filePtr = some C.f
  frame : ∃ j : Nat, s.curPage = some (j : Int) ∧ w.pool.hashTable.find (some C.f, p) = some (j : Int)
  curPageNo : s.curPageNo = p
  clean : s.curDirtyFlag = false
  keep : s.matchRec = C.keep
  ahead : (C.pg p).live.filter (fun e => s.slotPos < e.1) = R
  ne : p ≠ -1
  numbered : (C.pg p).curPage = p
  chain : Chain C.pg (C.pg p).nextPage qs

/-- The scan has returned FILEEOF: no data page pinned, `curPageNo` -1. -/
structure Exhausted (C : ScanCtx) (s : HeapFileScan) (w : World) : Prop where
  reading : Reading C.w₀ C.g C.u₁ C.u₂ (onePin C.hdrKey) w
  file : s.filePtr = some C.f
  keep : s.matchRec = C.keep
  curPage : s.curPage = none
  curPageNo : s.curPageNo = -1

/-- Where a scan stands with the matching records `rem` still to hand out and
fewer than `m` steps of walk left: on a page of the chain, or past FILEEOF. -/
def Scanning (C : ScanCtx) (m : Nat) (rem : List (RID × Record)) (s : HeapFileScan) (w : World) : Prop :=
  (rem = [] ∧ Exhausted C s w) ∨ ∃ p R qs, ScanAt C s w p R qs ∧ C.matching p R qs = rem ∧ C.measure R qs < m

theorem Scanning.mono {C : ScanCtx} {m m' : Nat} (hm : m ≤ m') {rem s w} (h : Scanning C m rem s w) :
    Scanning C m' rem s w :=
  h.imp_right fun ⟨p, R, qs, hs, hr, hlt⟩ => ⟨p, R, qs, hs, hr, Nat.lt_of_lt_of_le hlt hm⟩

namespace ScanAt

variable {C : ScanCtx} {s : HeapFileScan} {w : World} {p : Int} {R : List (Nat × Record)} {qs : List Int}

/-- The current page's bytes are the page's at the start. -/
theorem page_eq (h : ScanAt C s w p R qs) : s.page w = C.pg p := by
  obtain ⟨j, hc, hf⟩ := h.frame
  simp only [HeapFile.page, hc, Option.getD_some, World.frame_natCast]
  rw [← logical_of_find hf, h.reading.logical _ (C.fresh p)]; rfl

theorem nextRid_eq (h : ScanAt C s w p R qs) :
    s.nextRid w = match R with
      | [] => .error (if s.curRec = NULLRID then .NORECORDS else .ENDOFPAGE)
      | e :: _ => .ok ⟨p, e.1⟩ := by
  rw [HeapFileScan.nextRid_eq, h.page_eq, DataPage.nextLive_eq]
  change (match (((C.pg p).live.filter fun e => s.slotPos < e.1).head?).map Prod.fst with
    | some n => _ | none => _) = _
  rw [h.ahead, h.numbered]
  cases R <;> rfl

/-- The next live slot is handed out and the walk moves past it. -/
theorem consume {e : Nat × Record} (h : ScanAt C s w p (e :: R) qs) :
    DataPage.getRecord (({ s with curRec := ⟨p, e.1⟩ } : HeapFileScan).page w) ⟨p, e.1⟩ = .ok e.2 ∧
      ScanAt C { s with curRec := ⟨p, e.1⟩ } w p R qs := by
  have he : e ∈ (C.pg p).live := (List.mem_filter.1 (h.ahead ▸ List.mem_cons_self e R)).1
  refine ⟨?_, { h with keep := h.keep, ahead := ?_ }⟩
  · show (s.page w).getRecord ⟨p, e.1⟩ = .ok e.2
    rw [h.page_eq]; simp [DataPage.getRecord, DataPage.slot_of_mem_live he]
  · have hpos : ({ s with curRec := ⟨p, e.1⟩ } : HeapFileScan).slotPos = e.1 := by
      simp [HeapFileScan.slotPos, NULLRID]
    rw [hpos]
    exact DataPage.live_filter_next (DataPage.liveFrom_sorted _ _) h.ahead

/-- At the end of a page the walk asks for the next page. -/
theorem endOfPage (h : ScanAt C s w p [] qs) :
    s.nextRid w = .error .NORECORDS ∨ s.nextRid w = .error .ENDOFPAGE := by
  rw [h.nextRid_eq]; by_cases hc : s.curRec = NULLRID <;> simp [hc]

/-- Leaving page `p` unpins it, clean, and the scan keeps the header pin only. -/
theorem unpin (h : ScanAt C s w p R qs) :
    ∃ w', w.unPinPage (some C.f) p false = (.OK, w') ∧ Reading C.w₀ C.g C.u₁ C.u₂ (onePin C.hdrKey) w' := by
  obtain ⟨w', hu, hR⟩ := h.reading.unPinPage (f := C.f) (p := p) (by simp [ScanCtx.held, onePin])
  exact ⟨w', hu, hR.congr fun _ => Nat.add_sub_cancel _ _⟩

/-- A scan just moved to page `q` of the chain, pinned in frame `j`, clean and
before the first slot, stands before all of `q`'s live slots. -/
theorem start {q : Int} {j : Nat} (hR : Reading C.w₀ C.g C.u₁ C.u₂ (C.held q) w) (hfile : s.filePtr = some C.f)
    (hk : s.matchRec = C.keep) (hcur : s.curPage = some (j : Int)) (hno : s.curPageNo = q)
    (hcl : s.curDirtyFlag = false) (hrec : s.curRec = NULLRID)
    (hf : w.pool.hashTable.find (some C.f, q) = some (j : Int)) (hc : Chain C.pg q (q :: qs)) :
    ScanAt C s w q (C.pg q).live qs :=
  have hc := hc.of_cons
  have hpos : s.slotPos = 0 := by simp [HeapFileScan.slotPos, hrec]
  { reading := hR, file := hfile, frame := ⟨j, hcur, hf⟩, curPageNo := hno, clean := hcl, keep := hk,
    ahead := hpos ▸ DataPage.live_filter_pos _, ne := hc.2.1, numbered := hc.2.2.1, chain := hc.2.2.2 }

/-- `startScan` changes the predicate only: the scan stands where it stood. -/
theorem withFilter (h : ScanAt C s w p R qs) {s' : HeapFileScan} (hs : s'.toHeapFile = s.toHeapFile) :
    ScanAt { C with keep := s'.matchRec } s' w p R qs where
  reading := h.reading
  file := hs ▸ h.file
  frame := hs ▸ h.frame
  curPageNo := hs ▸ h.curPageNo
  clean := hs ▸ h.clean
  keep := rfl
  ahead := by unfold HeapFileScan.slotPos; rw [hs]; exact h.ahead
  ne := h.ne
  numbered := h.numbered
  chain := h.chain

/-- `startScan` with no filter or an accepted one: the scan stands where it
stood, with the predicate its arguments describe. -/
theorem startScan (h : ScanAt C s w p R qs) {offset length : Int} {type : Datatype}
    {filter : Option (List UInt8)} (op : Operator)
    (hparm : filter = none ∨ HeapFileScan.ScanParmOk offset length type) :
    ScanAt { C with keep := HeapFileScan.selects offset length type filter op }
      (s.startScan offset length type filter op).2 w p R qs := by
  have h' := h.withFilter (s.startScan_toHeapFile offset length type filter op)
  rwa [HeapFileScan.startScan_matchRec s (s.startScan_ok op hparm)] at h'

/-- A live slot ahead: the loop hands it out, and stops on it if it matches. -/
theorem loop_consume {e : Nat × Record} (h : ScanAt C s w p (e :: R) qs) :
    ∃ s', ScanAt C s' w p R qs ∧ s'.getRecord w = .ok e.2 ∧ ∀ n,
      scanLoop (n + 1) s w = if C.keep e.2 then some (.ok ⟨p, e.1⟩, s', w) else scanLoop n s' w := by
  obtain ⟨hr, h'⟩ := h.consume
  obtain ⟨j, hc, -⟩ := h.frame
  refine ⟨_, h', ?_, fun n => ?_⟩
  · simpa [HeapFileScan.getRecord, hc, h.curPageNo] using hr
  · simp only [scanLoop, h.nextRid_eq, hr, h'.keep]

/-- The end of page `p`, with page `q` next on the chain: the loop unpins `p`,
reads `q` and goes on from before `q`'s first slot. -/
theorem loop_advance {q : Int} (h : ScanAt C s w p [] (q :: qs)) :
    ∃ s' w', ScanAt C s' w' q (C.pg q).live qs ∧ ∀ n, scanLoop (n + 1) s w = scanLoop n s' w' := by
  obtain ⟨w1, hu, hR1⟩ := h.unpin
  obtain ⟨j, w2, hr, hf, -, hR2⟩ := hR1.readPage C.f q (.inr (hR1.free C.distinct fun _ => Nat.le_refl _))
  obtain ⟨hx, hq, hn, hc⟩ := h.chain.of_cons
  refine ⟨({ s with curPage := none } : HeapFileScan).atPage j q, w2,
    start hR2 h.file h.keep rfl rfl rfl rfl hf (hx ▸ h.chain), fun n => ?_⟩
  rcases h.endOfPage with he | he <;>
    simp only [scanLoop, he, h.page_eq, h.file, h.curPageNo, h.clean, hu, hx, if_neg hq, hr]

/-- The end of the last page: the loop unpins it and returns FILEEOF. -/
theorem loop_finish (h : ScanAt C s w p [] []) :
    ∃ s' w', Exhausted C s' w' ∧ ∀ n, scanLoop (n + 1) s w = some (.error .FILEEOF, s', w') := by
  obtain ⟨w1, hu, hR1⟩ := h.unpin
  refine ⟨{ ({ s with curPage := none } : HeapFileScan) with curPageNo := -1, curRec := NULLRID }, w1,
    ⟨hR1, h.file, h.keep, rfl, rfl⟩, fun n => ?_⟩
  rcases h.endOfPage with he | he <;>
    simp only [scanLoop, he, h.page_eq, h.file, h.curPageNo, h.clean, hu, h.chain.eq_neg_one, if_true]

/-- The constructor opens the file and pins its header page and its first data
page, before that page's first slot, with no predicate. -/
theorem new_scanAt {name : String} {p : Int} (hR : Reading C.w₀ C.g C.u₁ C.u₂ (fun _ => 0) C.w₀)
    (hopen : C.w₀.db.openFile name = .ok C.f) (hkeep : C.keep = fun _ => true)
    (hc : Chain C.pg (C.w₀.header C.f).firstPage (p :: qs)) :
    (HeapFileScan.new C.w₀ name).1 = .OK ∧
      ScanAt C (HeapFileScan.new C.w₀ name).2.1 (HeapFileScan.new C.w₀ name).2.2 p (C.pg p).live qs := by
  obtain ⟨j₁, w1, hr1, -, hb1, hR1⟩ := hR.readPage C.f (C.w₀.db.first C.f)
    (.inr (hR.free C.distinct fun _ => Nat.zero_le (onePin C.hdrKey _)))
  obtain ⟨j₂, w2, hr2, hf2, -, hR2⟩ := hR1.readPage C.f p (.inr (hR1.free C.distinct fun _ => (Nat.zero_add _).le))
  have hhdr : (w1.frame j₁).toHdr = C.w₀.header C.f := by rw [World.frame_natCast, hb1]; rfl
  have hp : (C.w₀.header C.f).firstPage = p := hc.of_cons.1
  simp only [HeapFileScan.new, HeapFile.new, hopen, Db.getFirstPage, hr1, HeapFile.hdr, Option.getD_some, hhdr,
    hp, hr2]
  exact ⟨trivial, start (hR2.congr fun _ => by rw [Nat.zero_add]; rfl) rfl (by rw [hkeep]; rfl) rfl rfl rfl rfl hf2
    (hp ▸ hc)⟩

end ScanAt

open ScanAt

variable {C : ScanCtx}

/-- From `ScanAt`, the loop of one `scanNext` call returns the first matching
record ahead and stops on it, or returns FILEEOF past the chain's end, within
`measure R qs + 1` iterations. -/
theorem scanLoop_answers : ∀ (n : Nat) {s : HeapFileScan} {w : World} {p : Int} {R : List (Nat × Record)}
    {qs : List Int}, ScanAt C s w p R qs → C.measure R qs < n →
    ∃ s' w', scanLoop n s w = some (answer (C.matching p R qs), s', w') ∧
      Scanning C (C.measure R qs) (C.matching p R qs).tail s' w' ∧
      ∀ x ∈ (C.matching p R qs).head?, s'.getRecord w' = .ok x.2
  | 0, _, _, _, _, _, _, hn => absurd hn (Nat.not_lt_zero _)
  | n + 1, _, w, p, e :: R, qs, h, hn => by
    obtain ⟨s', h', hg, heq⟩ := h.loop_consume
    rw [heq, WalkCtx.matching_cons, WalkCtx.measure_cons]
    rw [WalkCtx.measure_cons] at hn
    by_cases hk : C.keep e.2
    · simp only [if_pos hk, answer, List.tail_cons, List.head?_cons, Option.mem_def, Option.some.injEq]
      exact ⟨s', w, rfl, .inr ⟨p, R, qs, h', rfl, Nat.lt_succ_self _⟩, fun x hx => hx ▸ hg⟩
    · simp only [if_neg hk]
      obtain ⟨s'', w'', hl, hs, hg'⟩ := scanLoop_answers n h' (by omega)
      exact ⟨s'', w'', hl, hs.mono (Nat.le_succ _), hg'⟩
  | n + 1, _, _, _, [], q :: qs, h, hn => by
    obtain ⟨s', w', h', heq⟩ := h.loop_advance
    rw [heq, WalkCtx.matching_next, WalkCtx.measure_next]
    rw [WalkCtx.measure_next] at hn
    obtain ⟨s'', w'', hl, hs, hg⟩ := scanLoop_answers n h' (by omega)
    exact ⟨s'', w'', hl, hs.mono (Nat.le_succ _), hg⟩
  | n + 1, _, _, _, [], [], h, _ => by
    obtain ⟨s', w', hx, heq⟩ := h.loop_finish
    exact ⟨s', w', heq n, .inl ⟨rfl, hx⟩, nofun⟩

/-- One `scanNext` call answers the next matching record, or FILEEOF once there
is none, and the scan stands after it: on the record handed out, which
`getRecord` returns. -/
theorem scanNext_answers {n : Nat} {rem : List (RID × Record)} {s : HeapFileScan} {w : World}
    (h : Scanning C n rem s w) :
    ∃ s' w', s.scanNext n w = some (answer rem, s', w') ∧ Scanning C n rem.tail s' w' ∧
      ∀ x ∈ rem.head?, s'.getRecord w' = .ok x.2 := by
  rcases h with ⟨rfl, hx⟩ | ⟨p, R, qs, h, rfl, hlt⟩
  · exact ⟨s, w, by simp only [scanNext, hx.curPage, hx.curPageNo, if_true]; rfl, .inl ⟨rfl, hx⟩, nofun⟩
  · obtain ⟨j, hc, -⟩ := h.frame
    obtain ⟨s', w', hl, hs, hg⟩ := scanLoop_answers n h hlt
    exact ⟨s', w', by simp only [scanNext, hc]; exact hl, hs.mono (Nat.le_of_lt hlt), hg⟩

/-- With any bound on its iterations, the loop runs out or returns what it
returns with `measure R qs + 1` of them. -/
theorem scanLoop_runsOut : ∀ (n : Nat) {s : HeapFileScan} {w : World} {p : Int} {R : List (Nat × Record)}
    {qs : List Int}, ScanAt C s w p R qs → scanLoop n s w = none ∨ scanLoop n s w = scanLoop (C.measure R qs + 1) s w
  | 0, _, _, _, _, _, _ => .inl rfl
  | n + 1, _, _, _, e :: R, qs, h => by
    obtain ⟨s', h', -, heq⟩ := h.loop_consume
    rw [heq, heq, WalkCtx.measure_cons]
    split
    · exact .inr rfl
    · exact scanLoop_runsOut n h'
  | n + 1, _, _, _, [], q :: qs, h => by
    obtain ⟨s', w', h', heq⟩ := h.loop_advance
    rw [heq, heq, WalkCtx.measure_next]
    exact scanLoop_runsOut n h'
  | n + 1, _, _, _, [], [], h => by
    obtain ⟨s', w', -, heq⟩ := h.loop_finish
    exact .inr (by rw [heq, heq])

/-- A `scanNext` call that returns, with any bound on its loop, answers as
`scanNext_answers` says. -/
theorem Scanning.scanNext_some {m n : Nat} {rem : List (RID × Record)} {s : HeapFileScan} {w : World}
    {r : Except Status RID × HeapFileScan × World} (h : Scanning C m rem s w) (hs : s.scanNext n w = some r) :
    r.1 = answer rem ∧ Scanning C m rem.tail r.2.1 r.2.2 ∧ ∀ x ∈ rem.head?, r.2.1.getRecord r.2.2 = .ok x.2 := by
  rcases h with ⟨rfl, hx⟩ | ⟨p, R, qs, h, rfl, hlt⟩
  · simp only [scanNext, hx.curPage, hx.curPageNo, if_true, Option.some.injEq] at hs
    subst hs
    exact ⟨rfl, .inl ⟨rfl, hx⟩, nofun⟩
  · obtain ⟨j, hc, -⟩ := h.frame
    obtain ⟨s', w', hl, hs', hg⟩ := scanLoop_answers _ h (Nat.lt_succ_self _)
    simp only [scanNext, hc] at hs
    rcases scanLoop_runsOut n h with h0 | h0
    · rw [h0] at hs; cases hs
    · rw [h0, hl, Option.some.injEq] at hs
      subst hs
      exact ⟨rfl, hs'.mono (Nat.le_of_lt hlt), hg⟩

/-- The loop calls the pool only to unpin and read pages of the scan's file, and
leaves the scan's header page as it was. -/
theorem scanLoop_calls : ∀ (n : Nat) {f : FileId} {s : HeapFileScan} {w : World}
    {r : Except Status RID × HeapFileScan × World}, s.filePtr = some f → scanLoop n s w = some r →
    FileCalls f w r.2.2 ∧ r.2.1.headerPageNo = s.headerPageNo ∧ r.2.1.hdrDirtyFlag = s.hdrDirtyFlag
  | 0, _, _, _, _, _, h => by cases h
  | n + 1, _, s, w, _, hf, h => by
    simp only [scanLoop] at h
    split at h
    case h_1 | h_2 =>
      split at h
      · next hu =>
        rw [hf] at hu
        split at h
        · cases h; exact ⟨FileCalls.unPinPage hu, rfl, rfl⟩
        · split at h
          · next hr =>
            rw [hf] at hr
            obtain ⟨hc, h₁, h₂⟩ := scanLoop_calls n (by exact hf) h
            exact ⟨(FileCalls.unPinPage hu).trans ((FileCalls.readPage hr).trans hc), h₁, h₂⟩
          · next hr =>
            cases h; rw [hf] at hr; exact ⟨(FileCalls.unPinPage hu).trans (FileCalls.readPage hr), rfl, rfl⟩
      · next hu => cases h; rw [hf] at hu; exact ⟨FileCalls.unPinPage hu, rfl, rfl⟩
    case h_3 => cases h; exact ⟨FileCalls.refl w, rfl, rfl⟩
    case h_4 =>
      split at h
      · cases h; exact ⟨FileCalls.refl w, rfl, rfl⟩
      · split at h
        · cases h; exact ⟨FileCalls.refl w, rfl, rfl⟩
        · obtain ⟨hc, h₁, h₂⟩ := scanLoop_calls n (by exact hf) h
          exact ⟨hc, h₁, h₂⟩

/-- `scanNext` calls the pool only to read and unpin pages of the scan's file,
and leaves the scan's header page as it was. -/
theorem scanNext_calls {n : Nat} {f : FileId} {s : HeapFileScan} {w : World}
    {r : Except Status RID × HeapFileScan × World} (hf : s.filePtr = some f) (h : s.scanNext n w = some r) :
    FileCalls f w r.2.2 ∧ r.2.1.headerPageNo = s.headerPageNo ∧ r.2.1.hdrDirtyFlag = s.hdrDirtyFlag := by
  simp only [scanNext] at h
  split at h
  · split at h
    · cases h; exact ⟨FileCalls.refl w, rfl, rfl⟩
    · split at h
      · next hr =>
        rw [hf] at hr
        obtain ⟨hc, h₁, h₂⟩ := scanLoop_calls n (by exact hf) h
        exact ⟨(FileCalls.readPage hr).trans hc, h₁, h₂⟩
      · next hr => cases h; rw [hf] at hr; exact ⟨FileCalls.readPage hr, rfl, rfl⟩
  · exact scanLoop_calls n hf h

/-- The constructor opens the file's first page as the scan's header page, clean. -/
theorem HeapFileScan.new_hdr {w : World} {name : String} {f : FileId} (hopen : w.db.openFile name = .ok f) :
    (HeapFileScan.new w name).2.1.headerPageNo = w.db.first f ∧
      (HeapFileScan.new w name).2.1.hdrDirtyFlag = false := by
  simp only [HeapFileScan.new, HeapFile.new, hopen]
  split
  · exact ⟨rfl, rfl⟩
  · split <;> exact ⟨rfl, rfl⟩

/-- The pool's pins while the scan stands anywhere: the start's, the header
page's, and the current data page's while `curPage` is set. -/
theorem Scanning.pins {m : Nat} {rem : List (RID × Record)} {s : HeapFileScan} {w : World}
    (h : Scanning C m rem s w) (k : Key) :
    pinOf w.pool k = pinOf C.w₀.pool k + onePin C.hdrKey k +
      if s.curPage.isSome then onePin (some C.f, s.curPageNo) k else 0 := by
  rcases h with ⟨-, hx⟩ | ⟨p, R, qs, h, -, -⟩
  · simp [hx.reading.ledger, hx.curPage]
  · obtain ⟨j, hc, -⟩ := h.frame
    simp [h.reading.ledger, hc, h.curPageNo, ScanCtx.held, Nat.add_assoc]

/-- A client's loop: the scan and the world after `k` calls of `scanNext`, each
with at most `n` iterations of its loop; `none` if a call runs out. -/
def afterScans (n : Nat) : Nat → HeapFileScan → World → Option (HeapFileScan × World)
  | 0, s, w => some (s, w)
  | k + 1, s, w =>
    match s.scanNext n w with
    | some (_, s', w') => afterScans n k s' w'
    | none => none

/-- After `k` calls the scan has handed out the first `k` matching records. -/
theorem afterScans_scanning {n : Nat} : ∀ (k : Nat) {rem : List (RID × Record)} {s : HeapFileScan} {w : World},
    Scanning C n rem s w → ∃ s' w', afterScans n k s w = some (s', w') ∧ Scanning C n (rem.drop k) s' w'
  | 0, _, s, w, h => ⟨s, w, rfl, h⟩
  | k + 1, rem, _, _, h => by
    obtain ⟨s1, w1, hs, h1, -⟩ := scanNext_answers h
    obtain ⟨s2, w2, ha, h2⟩ := afterScans_scanning k h1
    refine ⟨s2, w2, by simp only [afterScans, hs]; exact ha, ?_⟩
    rwa [List.drop_tail] at h2

/-- A client's loop: the answers of `k` calls of `scanNext`, each with at most
`n` iterations of its loop; `none` if a call runs out. -/
def scanAnswers (n : Nat) : Nat → HeapFileScan → World → Option (List (Except Status RID))
  | 0, _, _ => some []
  | k + 1, s, w =>
    match s.scanNext n w with
    | some (r, s', w') => (scanAnswers n k s' w').map (r :: ·)
    | none => none

/-- The answers of `k` calls: the matching records still to come, one a call,
then FILEEOF. -/
theorem Scanning.answers {n : Nat} : ∀ (k : Nat) {rem : List (RID × Record)} {s : HeapFileScan} {w : World},
    Scanning C n rem s w → scanAnswers n k s w = some ((List.range k).map fun i => answer (rem.drop i))
  | 0, _, _, _, _ => rfl
  | k + 1, rem, _, _, h => by
    obtain ⟨s', w', hs, h', -⟩ := scanNext_answers h
    simp only [scanAnswers, hs, Scanning.answers k h', Option.map_some', List.range_succ_eq_map, List.map_cons,
      List.map_map, List.drop_zero]
    congr 2
    exact List.map_congr_left fun i _ => by simp only [Function.comp, List.drop_tail]

/-- A `HeapFileScan` opened on a file whose data pages form a chain from the
header's `firstPage`, then `startScan` with no filter or an accepted one, then
`scanNext` again and again, in a pool where every file read and write succeeds,
no page of the file is fresh, and two frames are unpinned at the start. Call
number `k` returns the `k`-th record of `M` (the chain's live records that the
predicate of `startScan`'s arguments accepts, in chain and slot order, with
pairwise distinct RIDs), and FILEEOF once `M` is exhausted. Each call runs at
most `scanBound` iterations of its loop. Before each call the pool's pins are
those of the start plus one on the header page and one on the current data page
while `curPage` is set. -/
theorem scan_returns_matches {w₀ : World} {g : Ghost} {u₁ u₂ : Nat} {name : String} {f : FileId} {p : Int}
    {qs : List Int} (hrw : w₀.io.ReadWriteOk) (hc : ContentInv (w₀.pool, g))
    (hfresh : ∀ q, g.fresh (some f, q) = false) (hne : u₁ ≠ u₂) (h₁ : u₁ < w₀.pool.numBufs)
    (h₂ : u₂ < w₀.pool.numBufs) (hp₁ : (w₀.pool.bufTable u₁).pinCnt = 0) (hp₂ : (w₀.pool.bufTable u₂).pinCnt = 0)
    (hopen : w₀.db.openFile name = .ok f) (hchain : Chain (w₀.dataPage f) (w₀.header f).firstPage (p :: qs))
    (offset length : Int) (type : Datatype) (filter : Option (List UInt8)) (op : Operator)
    (hparm : filter = none ∨ HeapFileScan.ScanParmOk offset length type) :
    let o : Status × HeapFileScan × World := HeapFileScan.new w₀ name
    let st : Status × HeapFileScan := o.2.1.startScan offset length type filter op
    let M : List (RID × Record) :=
      (chainRecords (w₀.dataPage f) (p :: qs)).filter fun x => HeapFileScan.selects offset length type filter op x.2
    o.1 = .OK ∧ st.1 = .OK ∧ (M.map Prod.fst).Nodup ∧
      ∀ k, ∃ s w, afterScans (scanBound (w₀.dataPage f) (p :: qs)) k st.2 o.2.2 = some (s, w) ∧
        (∀ key, pinOf w.pool key = pinOf w₀.pool key + onePin (some f, w₀.db.first f) key +
          if s.curPage.isSome then onePin (some f, s.curPageNo) key else 0) ∧
        ∃ s' w', s.scanNext (scanBound (w₀.dataPage f) (p :: qs)) w = some (answer (M.drop k), s', w') := by
  intro o st M
  let C₀ : ScanCtx := ⟨⟨w₀, f, fun _ => true⟩, g, u₁, u₂, hfresh, hne⟩
  obtain ⟨hok, h0⟩ := ScanAt.new_scanAt (C := C₀) (Reading.start hrw hc h₁ h₂ hp₁ hp₂) hopen rfl hchain
  have hS : Scanning { C₀ with keep := HeapFileScan.selects offset length type filter op }
      (scanBound (w₀.dataPage f) (p :: qs)) M st.2 o.2.2 :=
    .inr ⟨p, _, qs, h0.startScan op hparm, rfl, Nat.lt_of_lt_of_eq (Nat.lt_succ_self _) (WalkCtx.measure_start p qs)⟩
  refine ⟨hok, HeapFileScan.startScan_ok o.2.1 op hparm,
    (chainRecords_nodup _ hchain.nodup).sublist ((List.filter_sublist _).map _), fun k => ?_⟩
  obtain ⟨s, w, ha, hs⟩ := afterScans_scanning k hS
  obtain ⟨s', w', hn, -⟩ := scanNext_answers hs
  exact ⟨s, w, ha, hs.pins, s', w', hn⟩

/-- `twoRecordWorld`'s file `t`, with pages 1 and 2 on its chain, scanned with
the filter `= (2)` on the first byte: it rejects the record of page 1 and
accepts the record of page 2. -/
theorem scan_returns_matches_filtered :
    let o : Status × HeapFileScan × World := HeapFileScan.new twoRecordWorld "t"
    let st : Status × HeapFileScan := o.2.1.startScan 0 1 .STRING (some [2]) .EQ
    let M : List (RID × Record) :=
      (chainRecords (twoRecordWorld.dataPage 0) [1, 2]).filter
        fun x => HeapFileScan.selects 0 1 .STRING (some [2]) .EQ x.2
    M.map Prod.snd = [⟨[2]⟩] ∧ o.1 = .OK ∧ st.1 = .OK ∧ (M.map Prod.fst).Nodup ∧
      ∀ k, ∃ s w, afterScans (scanBound (twoRecordWorld.dataPage 0) [1, 2]) k st.2 o.2.2 = some (s, w) ∧
        (∀ key, pinOf w.pool key = pinOf twoRecordWorld.pool key + onePin (some 0, twoRecordWorld.db.first 0) key +
          if s.curPage.isSome then onePin (some 0, s.curPageNo) key else 0) ∧
        ∃ s' w', s.scanNext (scanBound (twoRecordWorld.dataPage 0) [1, 2]) w = some (answer (M.drop k), s', w') :=
  ⟨by decide, scan_returns_matches (g := ⟨fun _ => false, fun _ => false⟩)
    (⟨fun _ => rfl, fun _ => rfl⟩ : twoRecordWorld.io.ReadWriteOk)
    (contentInv_inductive.init _ ⟨⟨3, _, by decide, rfl⟩, rfl⟩) (fun _ => rfl) (by decide : 0 ≠ 1)
    (by decide) (by decide) rfl rfl (rfl : twoRecordWorld.db.openFile "t" = .ok 0)
    (.cons (by decide) rfl (.cons (by decide) rfl .nil)) 0 1 .STRING (some [2]) .EQ (.inr (by decide))⟩

/-- File `t` (file 0) without data pages: header page 0 with `firstPage` and
`lastPage` -1. The file layer answers a read of page -1 with the bytes it holds
there, a page with the one record `(1)`. -/
def noDataPageWorld : World :=
  { pool := BufMgr.init 3 fun k =>
      if k = (some 0, 0) then .hdr ⟨1, 0, -1, -1⟩
      else if k = (some 0, -1) then .data ⟨-1, -1, [some ⟨[1]⟩]⟩ else .raw
    db := ⟨fun n => if n = "t" then some 0 else none, 1, fun _ => 1, fun _ => 0⟩
    io := BufMgr.ioOk }

/-- The constructor reads the header's `firstPage` without checking it
(heapfile.C:144): on a file whose `firstPage` is -1, with every call
succeeding, it pins page -1 as the first data page, and the first `scanNext`
returns OK with the record `(-1, 1)` of that page, where a file without data
pages has no record to hand out. -/
theorem scan_reads_page_minus_one :
    let o : Status × HeapFileScan × World := HeapFileScan.new noDataPageWorld "t"
    let st : Status × HeapFileScan := o.2.1.startScan 0 0 .STRING none .EQ
    (noDataPageWorld.header 0).firstPage = -1 ∧ o.1 = .OK ∧ o.2.1.curPageNo = -1 ∧ st.1 = .OK ∧
      (st.2.scanNext 2 o.2.2).map Prod.fst = some (.ok ⟨-1, 1⟩) := by
  decide

end Minirel
