import Minirel.Heap.Handle
import Minirel.Heap.Scan
import Minirel.Heap.Walk

/-!
# A scan that deletes what it hands out

`QU_Delete` (`src/stage6/delete.C`) runs a `HeapFileScan` and calls its
`deleteRecord` on every record `scanNext` returns. The scan walks the chain as a
read-only scan does (`Minirel.Heap.ScanRun`), in a writing session
(`Writing`): behind it, every record the predicate accepts is deleted; ahead of
it, the pages are those of the start.

* `DelAt C s w done d p R qs`: the scan is on page `p`, after the pages
  `done`, with the live slots `R` of `p` (as they were at the start) still
  ahead and the pages `qs` after `p`; it has deleted `d` records.
  `DelDone C s w d`: it has returned FILEEOF.
* `consume_skip`, `consume_delete`, `advance`, `finish`: one iteration of the
  loop of `scanNext` passes a record the predicate rejects, stops on one it
  accepts (which `deleteRecord` then deletes), moves to the next page, or
  unpins the last page and returns FILEEOF.

`Page::nextRecord` reads only the slot number of the RID it gets, so from a
slot just emptied it goes on with the next live slot (`filter_kept_delete`).

**Results.**
* `delLoop_step` (the step, by induction on the walk) and `delStep`: one
  `scanNext` returns the next record the predicate accepts, and
  `deleteRecord` deletes it, or there is none and `scanNext` returns FILEEOF,
  within `measure R qs + 1` iterations.
-/
namespace Minirel

open BufMgr
open HeapFileScan (scanLoop scanNext)

/-! ## Walking past deleted slots -/

section Kept

variable {L : List (Nat × Record)} {k : Int} (keep : Record → Bool)

/-- Behind the walk the slots kept are those the predicate rejects; ahead of it, all. -/
theorem filter_kept_ahead :
    (L.filter fun x => k < x.1 || !keep x.2).filter (fun x => k < x.1) = L.filter fun x => k < x.1 := by
  rw [List.filter_filter]
  exact List.filter_congr fun x _ => by by_cases h : k < x.1 <;> simp [h]

/-- At the end of a page, the slots kept are those the predicate rejects. -/
theorem filter_kept_end (h : L.filter (fun x => k < x.1) = []) :
    L.filter (fun x => k < x.1 || !keep x.2) = L.filter fun x => !keep x.2 :=
  List.filter_congr fun x hx => by
    have : ¬ k < x.1 := by simpa using List.filter_eq_nil_iff.1 h x hx
    simp [this]

/-- The first live slot after `k` is after `k`. -/
theorem lt_of_filter_eq_cons {e : Nat × Record} {R : List (Nat × Record)}
    (h : L.filter (fun x => k < x.1) = e :: R) : k < e.1 := by
  have := (List.mem_filter.1 (h ▸ List.mem_cons_self e R : e ∈ L.filter fun x => k < x.1)).2
  simpa using this

variable (hs : L.Pairwise (fun a b => a.1 < b.1)) {e : Nat × Record} {R : List (Nat × Record)}
  (h : L.filter (fun x => k < x.1) = e :: R)
include hs h

/-- Every slot after `k` up to `e`, the first live one, is `e`. -/
theorem eq_of_filter_head {x : Nat × Record} (hx : x ∈ L) (hkx : k < x.1) (hxe : x.1 ≤ e.1) : x = e := by
  rcases List.mem_cons.1 (h ▸ List.mem_filter.2 ⟨hx, by simpa using hkx⟩) with rfl | hR
  · rfl
  · have := (List.mem_filter.1 (DataPage.live_filter_next hs h ▸ hR)).2
    simp only [decide_eq_true_eq] at this; omega

/-- Passing a slot the predicate rejects keeps the slots kept. -/
theorem filter_kept_skip (hk : keep e.2 = false) :
    L.filter (fun x => k < x.1 || !keep x.2) = L.filter fun x => (e.1 : Int) < x.1 || !keep x.2 :=
  List.filter_congr fun x hx => by
    have he := lt_of_filter_eq_cons h
    by_cases hkx : k < x.1
    · by_cases hxe : x.1 ≤ e.1
      · rw [eq_of_filter_head hs h hx hkx hxe]; simp [hk]
      · have : (e.1 : Int) < x.1 := by omega
        simp [hkx, this]
    · have : ¬ (e.1 : Int) < x.1 := by omega
      simp [hkx, this]

/-- Deleting the slot `e` the walk stopped on, which the predicate accepts. -/
theorem filter_kept_delete (hk : keep e.2 = true) :
    (L.filter fun x => k < x.1 || !keep x.2).filter (fun x => (x.1 : Int) ≠ e.1) =
      L.filter fun x => (e.1 : Int) < x.1 || !keep x.2 := by
  rw [List.filter_filter]
  refine List.filter_congr fun x hx => ?_
  have he := lt_of_filter_eq_cons h
  by_cases hkx : k < x.1
  · by_cases hxe : x.1 ≤ e.1
    · rw [eq_of_filter_head hs h hx hkx hxe]; simp [hk]
    · have : (e.1 : Int) < x.1 := by omega
      simp [hkx, this, show (x.1 : Int) ≠ e.1 by omega]
  · have : ¬ (e.1 : Int) < x.1 := by omega
    simp [hkx, this, show (x.1 : Int) ≠ e.1 by omega]

end Kept

/-! ## The walk -/

/-- What a deleting scan works from: a walk over the data pages `ps`, a chain from
the header's `firstPage`, and the frames `us` the session may use, two or more.
The header is not a data page, and every page is allocated. -/
structure DelCtx extends WalkCtx where
  us : List Nat
  ps : List Int
  chain : Chain (w₀.dataPage f) (w₀.header f).firstPage ps
  hdrOff : w₀.db.first f ∉ ps
  below : ∀ q ∈ ps, q < w₀.db.next f
  frames : us.Nodup ∧ 2 ≤ us.length

/-- The header page at the start. -/
def DelCtx.H₀ (C : DelCtx) : HdrPage := C.w₀.header C.f

/-- The deleting scan is on page `p`, after the pages `done`, with the live slots
`R` of `p` (as they were at the start) still ahead and the pages `qs` after `p`;
it has deleted `d` records. Behind it the records the predicate accepts are
deleted, ahead of it the pages are those of the start, and no link changed. -/
structure DelAt (C : DelCtx) (s : HeapFileScan) (w : World) (done : List Int) (d : Nat) (p : Int)
    (R : List (Nat × Record)) (qs : List Int) : Prop where
  writing : Writing C.w₀ C.f C.us (s.held C.f) s.wrote w
  holds : s.Holds C.f w
  db : w.db = C.w₀.db
  curPageNo : s.curPageNo = p
  keep : s.matchRec = C.keep
  split : C.ps = done ++ p :: qs
  ahead : (C.pg p).live.filter (fun e => s.slotPos < e.1) = R
  links : ∀ q ∈ C.ps, (w.image C.f q).toPage.curPage = (C.pg q).curPage ∧
    (w.image C.f q).toPage.nextPage = (C.pg q).nextPage
  donePages : ∀ q ∈ done, (w.image C.f q).toPage.live = (C.pg q).live.filter fun e => !C.keep e.2
  curLive : (w.image C.f p).toPage.live = (C.pg p).live.filter fun e => s.slotPos < e.1 || !C.keep e.2
  aheadPages : ∀ q ∈ qs, (w.image C.f q).toPage = C.pg q
  hdr : (w.image C.f (C.w₀.db.first C.f)).toHdr = { C.H₀ with recCnt := C.H₀.recCnt - d }

/-- The deleting scan has returned FILEEOF after deleting `d` records: it holds
the header page only, and no page of the chain has a record the predicate
accepts. -/
structure DelDone (C : DelCtx) (s : HeapFileScan) (w : World) (d : Nat) : Prop where
  writing : Writing C.w₀ C.f C.us (onePin (some C.f, s.headerPageNo))
    (fun q => s.hdrDirtyFlag && q == s.headerPageNo) w
  file : s.filePtr = some C.f
  db : w.db = C.w₀.db
  hdrNo : s.headerPageNo = C.w₀.db.first C.f
  hdrFrame : ∃ j : Nat, s.headerPage = some (j : Int) ∧
    w.pool.hashTable.find (some C.f, s.headerPageNo) = some (j : Int)
  curPage : s.curPage = none
  curPageNo : s.curPageNo = -1
  links : ∀ q ∈ C.ps, (w.image C.f q).toPage.curPage = (C.pg q).curPage ∧
    (w.image C.f q).toPage.nextPage = (C.pg q).nextPage
  pages : ∀ q ∈ C.ps, (w.image C.f q).toPage.live = (C.pg q).live.filter fun e => !C.keep e.2
  hdr : (w.image C.f (C.w₀.db.first C.f)).toHdr = { C.H₀ with recCnt := C.H₀.recCnt - d }

namespace DelAt

variable {C : DelCtx} {s : HeapFileScan} {w : World} {done : List Int} {d : Nat} {p : Int}
  {R : List (Nat × Record)} {qs : List Int}

theorem mem_cur (h : DelAt C s w done d p R qs) : p ∈ C.ps := by
  rw [h.split]; exact List.mem_append_right _ (List.mem_cons_self _ _)

theorem hdr_ne (h : DelAt C s w done d p R qs) {q : Int} (hq : q ∈ C.ps) : q ≠ s.headerPageNo := by
  rw [h.holds.hdrNo, h.db]; exact fun e => C.hdrOff (e ▸ hq)

theorem nodup (h : DelAt C s w done d p R qs) : (done ++ p :: qs).Nodup := h.split ▸ C.chain.nodup

theorem mem_done (h : DelAt C s w done d p R qs) {q : Int} (hq : q ∈ done) : q ∈ C.ps :=
  h.split ▸ List.mem_append_left _ hq

theorem mem_ahead (h : DelAt C s w done d p R qs) {q : Int} (hq : q ∈ qs) : q ∈ C.ps :=
  h.split ▸ List.mem_append_right _ (List.mem_cons_of_mem _ hq)

theorem ne_of_done (h : DelAt C s w done d p R qs) {q : Int} (hq : q ∈ done) : q ≠ p := fun e =>
  List.disjoint_of_nodup_append h.nodup hq (e ▸ List.mem_cons_self _ _)

theorem ne_of_ahead (h : DelAt C s w done d p R qs) {q : Int} (hq : q ∈ qs) : q ≠ p := fun e =>
  (List.nodup_cons.1 (List.nodup_append.1 h.nodup).2.1).1 (e ▸ hq)

theorem chain (h : DelAt C s w done d p R qs) : Chain C.pg p (p :: qs) := by
  have hc : Chain C.pg (C.w₀.header C.f).firstPage (done ++ p :: qs) := h.split ▸ C.chain
  obtain ⟨y, hy⟩ := hc.drop done
  exact hy.of_cons.1 ▸ hy

/-- The current page's bytes are its logical bytes. -/
theorem page_eq (h : DelAt C s w done d p R qs) : s.page w = (w.image C.f p).toPage := by
  rw [h.holds.page_eq, h.curPageNo]

theorem nextRid_eq (h : DelAt C s w done d p R qs) :
    s.nextRid w = match R with
      | [] => .error (if s.curRec = NULLRID then .NORECORDS else .ENDOFPAGE)
      | e :: _ => .ok ⟨p, e.1⟩ := by
  rw [HeapFileScan.nextRid_eq, h.page_eq, DataPage.nextLive_eq]
  change (match ((((w.image C.f p).toPage.live.filter fun e => s.slotPos < e.1)).head?).map Prod.fst with
    | some n => _ | none => _) = _
  rw [h.curLive, filter_kept_ahead, h.ahead, (h.links p h.mem_cur).1, h.chain.of_cons.2.2.1]
  cases R <;> rfl

/-- At the end of a page the walk asks for the next page. -/
theorem endOfPage (h : DelAt C s w done d p [] qs) :
    s.nextRid w = .error .NORECORDS ∨ s.nextRid w = .error .ENDOFPAGE := by
  rw [h.nextRid_eq]; by_cases hc : s.curRec = NULLRID <;> simp [hc]

/-- The slot `e` the walk reaches next holds its record on the current page. -/
theorem getRecord_next {e : Nat × Record} (h : DelAt C s w done d p (e :: R) qs) :
    DataPage.getRecord (({ s with curRec := ⟨p, e.1⟩ } : HeapFileScan).page w) ⟨p, e.1⟩ = .ok e.2 ∧
      e ∈ (w.image C.f p).toPage.live := by
  have hmem : e ∈ (w.image C.f p).toPage.live := by
    rw [h.curLive]
    exact List.mem_filter.2 ⟨(List.mem_filter.1 (h.ahead ▸ List.mem_cons_self e R)).1,
      by simp [lt_of_filter_eq_cons h.ahead]⟩
  refine ⟨?_, hmem⟩
  show (s.page w).getRecord ⟨p, e.1⟩ = .ok e.2
  rw [h.page_eq]; simp [DataPage.getRecord, DataPage.slot_of_mem_live hmem]

theorem slotPos_next (e : Nat × Record) : ({ s with curRec := ⟨p, e.1⟩ } : HeapFileScan).slotPos = e.1 := by
  simp [HeapFileScan.slotPos, NULLRID]

/-- A live slot ahead that the predicate rejects: the walk passes it. -/
theorem consume_skip {e : Nat × Record} (h : DelAt C s w done d p (e :: R) qs) (hk : C.keep e.2 = false) :
    DelAt C { s with curRec := ⟨p, e.1⟩ } w done d p R qs :=
  have hs := DataPage.liveFrom_sorted (C.pg p).slots 1
  { h with
    holds := ⟨h.holds.file, h.holds.hdrNo, h.holds.hdrFrame, h.holds.curFrame⟩
    keep := h.keep
    ahead := by rw [slotPos_next]; exact DataPage.live_filter_next hs h.ahead
    curLive := by rw [slotPos_next, h.curLive]; exact filter_kept_skip _ hs h.ahead hk }

/-- A live slot ahead that the predicate accepts: once the walk stops on it,
`deleteRecord` deletes it and decrements the header's `recCnt`. -/
theorem consume_delete {e : Nat × Record} (h : DelAt C s w done d p (e :: R) qs) (hk : C.keep e.2 = true) :
    ∃ s' w', ({ s with curRec := ⟨p, e.1⟩ } : HeapFileScan).deleteRecord w = (.OK, s', w') ∧
      DelAt C s' w' done (d + 1) p R qs := by
  have hs := DataPage.liveFrom_sorted (C.pg p).slots 1
  obtain ⟨-, hmem⟩ := h.getRecord_next
  let s1 : HeapFileScan := { s with curRec := ⟨p, e.1⟩ }
  have hh1 : s1.Holds C.f w := ⟨h.holds.file, h.holds.hdrNo, h.holds.hdrFrame, h.holds.curFrame⟩
  obtain ⟨P', hdel⟩ : ∃ P', (w.image C.f p).toPage.deleteRecord ⟨p, e.1⟩ = .ok P' :=
    ⟨_, by rw [DataPage.deleteRecord, DataPage.slot_of_mem_live hmem]⟩
  obtain ⟨r, -, hP'⟩ := DataPage.deleteRecord_eq_ok hdel
  obtain ⟨himg1, hW1⟩ := hh1.setPage h.writing (s.held_cur C.f) P'
  let s2 : HeapFileScan := { s1 with curDirtyFlag := true, hdrDirtyFlag := true }
  have hh2 : s2.Holds C.f (s1.setPage w P') := by
    unfold HeapFile.setPage; exact ⟨hh1.file, hh1.hdrNo, hh1.hdrFrame, hh1.curFrame⟩
  set H' : HdrPage := { s2.hdr (s1.setPage w P') with recCnt := (s2.hdr (s1.setPage w P')).recCnt - 1 }
    with hH'
  obtain ⟨himg2, hW2⟩ := hh2.setHdr hW1 (s.held_hdr C.f) H'
  have hhdr : s.headerPageNo = C.w₀.db.first C.f := by rw [h.holds.hdrNo, h.db]
  have hne : p ≠ s.headerPageNo := h.hdr_ne h.mem_cur
  have himg : ∀ q, q ≠ s.headerPageNo → q ≠ p →
      (s2.setHdr (s1.setPage w P') H').image C.f q = w.image C.f q :=
    fun q h₁ h₂ => by
      rw [himg2, Function.update_noteq h₁, himg1, Function.update_noteq (by rwa [← h.curPageNo] at h₂)]
  have himgp : (s2.setHdr (s1.setPage w P') H').image C.f p = .data P' := by
    rw [himg2, Function.update_noteq hne, himg1, ← h.curPageNo, Function.update_same]
  have hH : s2.hdr (s1.setPage w P') = { C.H₀ with recCnt := C.H₀.recCnt - d } := by
    rw [hh2.hdr_eq, himg1, Function.update_noteq (by rw [h.curPageNo]; exact hne.symm), hhdr, h.hdr]
  have hpos : s2.slotPos = e.1 := slotPos_next (s := s) e
  have hprog : s1.deleteRecord w = (.OK, s2, s2.setHdr (s1.setPage w P') H') := by
    have hpage : HeapFile.page { s.toHeapFile with curRec := ⟨p, e.1⟩ } w = (w.image C.f p).toPage := h.page_eq
    simp only [HeapFileScan.deleteRecord, hpage, hdel]
  refine ⟨s2, _, hprog, hW2.congr (fun _ => rfl) (s.update_wrote_both fun _ => s.eq_of_wrote),
    by unfold HeapFile.setHdr; exact hh2.setFrame _ _, h.db, h.curPageNo, h.keep, h.split,
    by rw [hpos]; exact DataPage.live_filter_next hs h.ahead,
    fun q hq => ?_, fun q hq => ?_, ?_, fun q hq => ?_, ?_⟩
  · by_cases hqp : q = p
    · subst hqp; rw [himgp, hP']; exact h.links _ hq
    · rw [himg q (h.hdr_ne hq) hqp]; exact h.links q hq
  · rw [himg q (h.hdr_ne (h.mem_done hq)) (h.ne_of_done hq)]; exact h.donePages q hq
  · rw [himgp, Img.toPage_data, DataPage.live_deleteRecord hdel, h.curLive, hpos]
    exact filter_kept_delete _ hs h.ahead hk
  · rw [himg q (h.hdr_ne (h.mem_ahead hq)) (h.ne_of_ahead hq)]; exact h.aheadPages q hq
  · rw [← hhdr, himg2, Function.update_same, Img.toHdr_hdr, hH', hH]
    simp only [HdrPage.mk.injEq, and_true, true_and]
    omega

/-- Unpinning the current page at the end of a walk over it, dirty if the walk
deleted on it: the scan keeps its header pin only, and owes only the header. -/
theorem unpin (h : DelAt C s w done d p R qs) :
    ∃ w', w.unPinPage (some C.f) p s.curDirtyFlag = (.OK, w') ∧ w'.db = w.db ∧ w'.image C.f = w.image C.f ∧
      Keeps (s.held C.f) w w' ∧
      Writing C.w₀ C.f C.us (onePin (some C.f, s.headerPageNo)) (fun q => s.hdrDirtyFlag && q == s.headerPageNo)
        w' := by
  have hne : s.curPageNo ≠ s.headerPageNo := h.curPageNo ▸ h.hdr_ne h.mem_cur
  obtain ⟨w', hu, hdb, hl, hk, hW⟩ := h.writing.unPinPage (s.held_cur C.f) s.curDirtyFlag fun hd => by
    simp [HeapFile.wrote, hd, hne]
  refine ⟨w', h.curPageNo ▸ hu, hdb, funext hl, hk, hW.congr (fun k => by simp only [HeapFile.held]; omega)
    fun q => ?_⟩
  by_cases hq : q = s.curPageNo
  · subst hq; cases hd : s.curDirtyFlag <;> simp [HeapFile.wrote, hd, hne]
  · cases hd : s.curDirtyFlag <;> simp [HeapFile.wrote, hd, hq, Function.update_noteq hq]

/-- The page a walk has gone past keeps only the records the predicate rejects. -/
theorem passed (h : DelAt C s w done d p [] qs) :
    ∀ q ∈ done ++ [p], (w.image C.f q).toPage.live = (C.pg q).live.filter fun e => !C.keep e.2 := by
  intro q hq
  rcases List.mem_append.1 hq with hq | hq
  · exact h.donePages q hq
  · rw [List.mem_singleton.1 hq, h.curLive]; exact filter_kept_end _ h.ahead

/-- A live slot ahead: the loop hands it out, and stops on it if the predicate
accepts it. -/
theorem loop_consume {e : Nat × Record} (h : DelAt C s w done d p (e :: R) qs) (n : Nat) :
    scanLoop (n + 1) s w = if C.keep e.2 then some (.ok ⟨p, e.1⟩, { s with curRec := ⟨p, e.1⟩ }, w)
      else scanLoop n { s with curRec := ⟨p, e.1⟩ } w := by
  have hk : ({ s with curRec := ⟨p, e.1⟩ } : HeapFileScan).matchRec = C.keep := h.keep
  simp only [scanLoop, h.nextRid_eq, h.getRecord_next.1, hk]

/-- Unpinning the current page, then reading a page `q` of the chain that is as
at the start, with the pages `done'` before it passed and the pages `qs'` after
it: the scan stands before `q`'s first slot, and the header page reads as
before. -/
theorem moveTo (h : DelAt C s w done d p R qs) {done' : List Int} {q : Int} {qs' : List Int}
    (hsplit : C.ps = done' ++ q :: qs')
    (hdone : ∀ q' ∈ done', (w.image C.f q').toPage.live = (C.pg q').live.filter fun e => !C.keep e.2)
    (hahead : ∀ q' ∈ q :: qs', (w.image C.f q').toPage = C.pg q') :
    ∃ w1 j w2, w.unPinPage (some C.f) p s.curDirtyFlag = (.OK, w1) ∧ s.hdr w1 = s.hdr w ∧
      w1.readPage (some C.f) q = (.ok j, w2) ∧ DelAt C (s.atPage j q) w2 done' d q (C.pg q).live qs' := by
  obtain ⟨w1, hu, hdb1, hl1, hk1, hW1⟩ := h.unpin
  have hks : ∀ k, 0 < onePin (some C.f, s.headerPageNo) k → k ∈ [(some C.f, s.headerPageNo)] := fun k hk => by
    unfold onePin at hk; split at hk
    · exact List.mem_singleton.2 ‹_›
    · omega
  have hqc : q ∈ C.ps := hsplit ▸ List.mem_append_right _ (List.mem_cons_self _ _)
  obtain ⟨j, w2, hr, hf2, hdb2, hl2, hk2, hW2⟩ := hW1.readPage (q := q)
    (by rw [hdb1, h.db]; exact C.below q hqc)
    (hW1.free C.frames.1 hks (by have := C.frames.2; simp only [List.length_singleton]; omega))
  obtain ⟨j₁, hp₁, hf₁⟩ := h.holds.hdrFrame
  have himg : w2.image C.f = w.image C.f := (funext hl2).trans hl1
  have hhdr : s.hdr w1 = s.hdr w := by
    rw [(h.holds.keep hk1 (s.held_hdr C.f) (s.held_cur C.f) (by rw [hdb1])).hdr_eq, h.holds.hdr_eq, hl1]
  refine ⟨w1, j, w2, hu, hhdr, hr,
    ⟨hW2.congr (fun k => by simp only [HeapFile.held, HeapFileScan.atPage]) fun q' => ?_,
      ⟨h.holds.file, h.holds.hdrNo.trans (by rw [hdb2, hdb1]),
        ⟨j₁, hp₁, hk2 _ _ (hk1 _ _ hf₁ (s.held_hdr C.f)) (by simp [onePin, HeapFileScan.atPage])⟩,
        ⟨j, rfl, hf2⟩⟩,
      hdb2.trans (hdb1.trans h.db), rfl, h.keep, hsplit,
      by simp only [HeapFileScan.slotPos, HeapFileScan.atPage, if_true]; exact DataPage.live_filter_pos _,
      fun q' hq' => himg ▸ h.links q' hq',
      fun q' hq' => himg ▸ hdone q' hq',
      ?_, fun q' hq' => himg ▸ hahead q' (List.mem_cons_of_mem _ hq'), himg ▸ h.hdr⟩⟩
  · simp [HeapFile.wrote, HeapFileScan.atPage]
  · rw [himg, hahead q (List.mem_cons_self _ _)]
    simp only [HeapFileScan.slotPos, HeapFileScan.atPage, if_true]
    exact (List.filter_eq_self.2 fun e he => by
      have := (DataPage.liveFrom_getElem _ 1 e he).1; simp only [Bool.or_eq_true, decide_eq_true_eq]; omega).symm

/-- The end of page `p`, with page `q` next on the chain: the loop unpins `p`
(dirty if the walk deleted on it), reads `q` and goes on from before `q`'s
first slot. -/
theorem advance {q : Int} (h : DelAt C s w done d p [] (q :: qs)) (n : Nat) :
    ∃ s' w', DelAt C s' w' (done ++ [p]) d q (C.pg q).live qs ∧ scanLoop (n + 1) s w = scanLoop n s' w' := by
  obtain ⟨w1, j, w2, hu, -, hr, h'⟩ := h.moveTo (by rw [h.split, List.append_assoc]; rfl) h.passed h.aheadPages
  obtain ⟨hnext, hq, -, -⟩ := h.chain.of_cons.2.2.2.of_cons
  refine ⟨_, w2, h', ?_⟩
  rcases h.endOfPage with he | he <;>
    simp only [scanLoop, he, h.page_eq, h.holds.file, h.curPageNo, hu, (h.links p h.mem_cur).2, hnext,
      if_neg hq, hr, HeapFileScan.atPage]

/-- At the end of the last page, unpinning it leaves the header pin alone: any
handle with the scan's file and header page, no current page and `curPageNo`
-1 stands past FILEEOF. -/
theorem unpin_last (h : DelAt C s w done d p [] []) :
    ∃ w', w.unPinPage (some C.f) p s.curDirtyFlag = (.OK, w') ∧ ∀ s' : HeapFileScan, s'.filePtr = s.filePtr →
      s'.headerPage = s.headerPage → s'.headerPageNo = s.headerPageNo → s'.hdrDirtyFlag = s.hdrDirtyFlag →
      s'.curPage = none → s'.curPageNo = -1 → DelDone C s' w' d := by
  obtain ⟨w1, hu, hdb1, hl1, hk1, hW1⟩ := h.unpin
  obtain ⟨j₁, hp₁, hf₁⟩ := h.holds.hdrFrame
  refine ⟨w1, hu, fun s' h₁ h₂ h₃ h₄ h₅ h₆ => ⟨by rw [h₃, h₄]; exact hW1, h₁ ▸ h.holds.file, hdb1.trans h.db,
    h₃ ▸ h.holds.hdrNo.trans (by rw [h.db]), ⟨j₁, h₂ ▸ hp₁, h₃ ▸ hk1 _ _ hf₁ (s.held_hdr C.f)⟩, h₅, h₆,
    fun q hq => hl1 ▸ h.links q hq,
    fun q hq => hl1 ▸ h.passed q (by rw [← List.append_nil (done ++ [p])]; simpa [h.split] using hq),
    hl1 ▸ h.hdr⟩⟩

/-- The end of the last page: the loop unpins it and returns FILEEOF. -/
theorem finish (h : DelAt C s w done d p [] []) (n : Nat) :
    ∃ s' w', DelDone C s' w' d ∧ scanLoop (n + 1) s w = some (.error .FILEEOF, s', w') := by
  obtain ⟨w1, hu, hD⟩ := h.unpin_last
  refine ⟨_, w1, hD { ({ s with curPage := none } : HeapFileScan) with curPageNo := -1, curRec := NULLRID }
    rfl rfl rfl rfl rfl rfl, ?_⟩
  rcases h.endOfPage with he | he <;>
    simp only [scanLoop, he, h.page_eq, h.holds.file, h.curPageNo, hu, (h.links p h.mem_cur).2,
      h.chain.of_cons.2.2.2.eq_neg_one, if_true]

end DelAt

/-- Where a deleting scan stands after `d` deletions, with the records `rem` still
to delete and fewer than `m` steps of walk left: on a page of the chain, or past
FILEEOF. -/
def DelScanning (C : DelCtx) (m d : Nat) (rem : List (RID × Record)) (s : HeapFileScan) (w : World) : Prop :=
  (rem = [] ∧ DelDone C s w d) ∨
    ∃ done p R qs, DelAt C s w done d p R qs ∧ C.matching p R qs = rem ∧ C.measure R qs < m

theorem DelScanning.mono {C : DelCtx} {m m' d : Nat} (hm : m ≤ m') {rem s w} (h : DelScanning C m d rem s w) :
    DelScanning C m' d rem s w :=
  h.imp_right fun ⟨done, p, R, qs, hs, hr, hlt⟩ => ⟨done, p, R, qs, hs, hr, Nat.lt_of_lt_of_le hlt hm⟩

open DelAt

variable {C : DelCtx}

/-- From `DelAt`, the loop of one `scanNext` call stops on the first record ahead
that the predicate accepts, which `deleteRecord` then deletes, or returns FILEEOF
past the chain's end, within `measure R qs + 1` iterations. -/
theorem delLoop_step : ∀ (n : Nat) {s : HeapFileScan} {w : World} {done : List Int} {d : Nat} {p : Int}
    {R : List (Nat × Record)} {qs : List Int}, DelAt C s w done d p R qs → C.measure R qs < n →
    (C.matching p R qs = [] ∧ ∃ s' w', scanLoop n s w = some (.error .FILEEOF, s', w') ∧ DelDone C s' w' d) ∨
    ∃ x rest, C.matching p R qs = x :: rest ∧ ∃ s' w', scanLoop n s w = some (.ok x.1, s', w') ∧
      ∃ s'' w'', s'.deleteRecord w' = (.OK, s'', w'') ∧ DelScanning C (C.measure R qs) (d + 1) rest s'' w''
  | 0, _, _, _, _, _, _, _, _, hn => absurd hn (Nat.not_lt_zero _)
  | n + 1, _, w, done, d, p, e :: R, qs, h, hn => by
    rw [h.loop_consume n, WalkCtx.matching_cons, WalkCtx.measure_cons]
    rw [WalkCtx.measure_cons] at hn
    by_cases hk : C.keep e.2
    · obtain ⟨s'', w'', hdel, h'⟩ := h.consume_delete hk
      simp only [if_pos hk]
      exact .inr ⟨_, _, rfl, _, _, rfl, s'', w'', hdel, .inr ⟨done, p, R, qs, h', rfl, Nat.lt_succ_self _⟩⟩
    · simp only [if_neg hk]
      rcases delLoop_step n (h.consume_skip (Bool.eq_false_iff.2 hk)) (by omega) with hl | ⟨x, rest, hm, hr⟩
      · exact .inl hl
      · obtain ⟨s', w', hs, s'', w'', hdel, hS⟩ := hr
        exact .inr ⟨x, rest, hm, s', w', hs, s'', w'', hdel, hS.mono (Nat.le_succ _)⟩
  | n + 1, _, _, _, _, _, [], q :: qs, h, hn => by
    obtain ⟨s', w', h', heq⟩ := h.advance n
    rw [heq, WalkCtx.matching_next, WalkCtx.measure_next]
    rw [WalkCtx.measure_next] at hn
    rcases delLoop_step n h' (by omega) with hl | ⟨x, rest, hm, hr⟩
    · exact .inl hl
    · obtain ⟨s', w', hs, s'', w'', hdel, hS⟩ := hr
      exact .inr ⟨x, rest, hm, s', w', hs, s'', w'', hdel, hS.mono (Nat.le_succ _)⟩
  | n + 1, _, _, _, _, _, [], [], h, _ => by
    obtain ⟨s', w', hx, heq⟩ := h.finish n
    exact .inl ⟨by simp [WalkCtx.matching, WalkCtx.stream], s', w', heq, hx⟩

/-- One `scanNext` call returns the next record the predicate accepts, which
`deleteRecord` then deletes, or FILEEOF once there is none. -/
theorem delStep {n d : Nat} {rem : List (RID × Record)} {s : HeapFileScan} {w : World}
    (h : DelScanning C n d rem s w) :
    (rem = [] ∧ ∃ s' w', s.scanNext n w = some (.error .FILEEOF, s', w') ∧ DelDone C s' w' d) ∨
    ∃ x rest, rem = x :: rest ∧ ∃ s' w', s.scanNext n w = some (.ok x.1, s', w') ∧
      ∃ s'' w'', s'.deleteRecord w' = (.OK, s'', w'') ∧ DelScanning C n (d + 1) rest s'' w'' := by
  rcases h with ⟨rfl, hx⟩ | ⟨done, p, R, qs, h, rfl, hlt⟩
  · exact .inl ⟨rfl, s, w, by simp only [scanNext, hx.curPage, hx.curPageNo, if_true], hx⟩
  · obtain ⟨j, hc, -⟩ := h.holds.curFrame
    have hsn : s.scanNext n w = scanLoop n s w := by simp only [scanNext, hc]
    rw [hsn]
    rcases delLoop_step n h hlt with hl | ⟨x, rest, hm, s', w', hs, s'', w'', hdel, hS⟩
    · exact .inl hl
    · exact .inr ⟨x, rest, hm, s', w', hs, s'', w'', hdel, hS.mono (Nat.le_of_lt hlt)⟩

end Minirel
