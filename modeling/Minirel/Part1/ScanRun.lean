import Minirel.Heap.ScanRun
import Minirel.Part1.Scan

/-!
# The other version's scan returns each matching record once, in order

The part_001 scan (`Minirel.Part1.Scan`) opened on a file whose data pages form
a chain, with every file read and write succeeding, walks the chain as stage4's
does (`Minirel.Heap.ScanRun`), and the proofs reuse stage4's loop invariant.

* `Part1.ScanOn C s w p R qs`: stage4's `ScanAt`, with the header page pinned in
  the frame `headerPage` points to, clean, and `curRec` NULL or on page `p`.
  Then part_001's `nextRid` asks for the same slot as stage4's (`nextRid_eq`),
  and `loop_consume`, `loop_advance`, `loop_finish` are the steps of the loop.
  At the end of the chain the scan stays where it is.
* `Part1.Scanning C m rem s w`: the scan stands on the chain with the matching
  records `rem` still to come; `scanLoop_answers` (the step, by induction on the
  walk), `scanNext_answers` and `afterScans_scanning` (the run).
* `ScanOn.new`, `ScanOn.rewind`, `ScanOn.startScan`: the constructor, and
  `startScan` from any position, leave the scan before the first page's first
  slot, `startScan` with the predicate its arguments describe
  (`HeapFileScan.selects`).

**Results.**
* `Part1.scan_hands_out_matches`: call number `k` returns the `k`-th matching
  record of the chain and FILEEOF once there is none. Before each call the
  pool's pins are the start's plus one on the header page and one on the
  current data page, which stays pinned after FILEEOF; the destructor releases
  both.
* `scan_versions_agree`: on the same file and predicate, the two versions'
  scans answer the same sequence.
* `Part1.startScan_restarts`: a `startScan` after any number of calls starts
  the new predicate's scan from the first record.
-/
namespace Minirel

open BufMgr

/-- The part_001 scan is on page `p` of its file's chain: stage4's `ScanAt`,
with the header page pinned in the frame `headerPage` points to, clean, and
`curRec` NULL or on page `p`. -/
structure Part1.ScanOn (C : ScanCtx) (s : HeapFileScan) (w : World) (p : Int) (R : List (Nat × Record))
    (qs : List Int) extends ScanAt C s w p R qs : Prop where
  header : ∃ j : Nat, s.headerPage = some (j : Int) ∧ w.pool.hashTable.find C.hdrKey = some (j : Int)
  headerPageNo : s.headerPageNo = C.w₀.db.first C.f
  hdrClean : s.hdrDirtyFlag = false
  onPage : s.curRec = NULLRID ∨ s.curRec.pageNo = p ∧ s.curRec.slotNo ≠ -1

/-- Where the part_001 scan stands with the matching records `rem` still to
hand out and fewer than `m` steps of walk left. -/
def Part1.Scanning (C : ScanCtx) (m : Nat) (rem : List (RID × Record)) (s : HeapFileScan) (w : World) : Prop :=
  ∃ p R qs, Part1.ScanOn C s w p R qs ∧ C.matching p R qs = rem ∧ C.measure R qs < m

theorem Part1.Scanning.mono {C : ScanCtx} {m m' : Nat} (hm : m ≤ m') {rem s w} (h : Part1.Scanning C m rem s w) :
    Part1.Scanning C m' rem s w :=
  let ⟨p, R, qs, hs, hr, hlt⟩ := h
  ⟨p, R, qs, hs, hr, Nat.lt_of_lt_of_le hlt hm⟩

namespace Part1.ScanOn

variable {C : ScanCtx} {s : HeapFileScan} {w : World} {p : Int} {R : List (Nat × Record)} {qs : List Int}

/-- The header page's bytes are the file's header at the start. -/
theorem hdr_eq (h : Part1.ScanOn C s w p R qs) : s.hdr w = C.w₀.header C.f := by
  obtain ⟨j, hc, hf⟩ := h.header
  simp only [HeapFile.hdr, hc, Option.getD_some, World.frame_natCast]
  rw [← logical_of_find hf, h.reading.logical C.hdrKey (C.fresh _)]; rfl

/-- On the chain, part_001's `nextRid` asks for the slot stage4's asks for. -/
theorem nextRid_eq (h : Part1.ScanOn C s w p R qs) : Part1.HeapFileScan.nextRid s w = s.nextRid w :=
  Part1.HeapFileScan.nextRid_eq_of h.ne h.curPageNo h.onPage

/-- A live slot ahead: the loop hands it out, and stops on it if it matches. -/
theorem loop_consume {e : Nat × Record} (h : Part1.ScanOn C s w p (e :: R) qs) :
    ∃ s', Part1.ScanOn C s' w p R qs ∧ ∀ n, Part1.HeapFileScan.scanLoop (n + 1) s w =
      if C.keep e.2 then some (.ok ⟨p, e.1⟩, s', w) else Part1.HeapFileScan.scanLoop n s' w := by
  obtain ⟨hr, h'⟩ := h.consume
  refine ⟨_, ⟨h', h.header, h.headerPageNo, h.hdrClean, .inr ⟨rfl, by show (e.1 : Int) ≠ -1; omega⟩⟩, fun n => ?_⟩
  change (s.page w).getRecord ⟨p, e.1⟩ = .ok e.2 at hr
  simp only [Part1.HeapFileScan.scanLoop, h.nextRid_eq, h.toScanAt.nextRid_eq, hr, h'.keep]

/-- The end of page `p`, with page `q` next on the chain: the loop unpins `p`,
reads `q` and goes on from before `q`'s first slot. -/
theorem loop_advance {q : Int} (h : Part1.ScanOn C s w p [] (q :: qs)) :
    ∃ s' w', Part1.ScanOn C s' w' q (C.pg q).live qs ∧
      ∀ n, Part1.HeapFileScan.scanLoop (n + 1) s w = Part1.HeapFileScan.scanLoop n s' w' := by
  obtain ⟨w1, hu, hR1⟩ := h.unpin
  obtain ⟨j, w2, hr, hf, -, hR2⟩ := hR1.readPage C.f q (.inr (hR1.free C.distinct fun _ => Nat.le_refl _))
  obtain ⟨hx, hq, -, -⟩ := h.chain.of_cons
  obtain ⟨i, hi, hfi⟩ := h.header
  have hfi2 : w2.pool.hashTable.find C.hdrKey = some (i : Int) :=
    hR1.find_readPage (by simp [onePin]) (by rw [h.reading.hashTable_unPinPage hu]; exact hfi) hr
  refine ⟨s.atPage j q, w2, ⟨ScanAt.start hR2 h.file h.keep rfl rfl rfl rfl hf (hx ▸ h.chain),
    ⟨i, hi, hfi2⟩, h.headerPageNo, h.hdrClean, .inl rfl⟩, fun n => ?_⟩
  rcases h.endOfPage with he | he <;>
    simp only [Part1.HeapFileScan.scanLoop, h.nextRid_eq, he, h.page_eq, h.file, h.curPageNo, h.clean, hu, hx,
      if_neg hq, hr]

/-- The end of the last page: the loop returns FILEEOF and the scan stays. -/
theorem loop_finish (h : Part1.ScanOn C s w p [] []) (n : Nat) :
    Part1.HeapFileScan.scanLoop (n + 1) s w = some (.error .FILEEOF, s, w) := by
  rcases h.endOfPage with he | he <;>
    simp only [Part1.HeapFileScan.scanLoop, h.nextRid_eq, he, h.page_eq, h.chain.eq_neg_one, if_true]

/-- `startScan` changes the predicate and the mark only: the scan stands where it stood. -/
theorem withFilter' (h : Part1.ScanOn C s w p R qs) {s' : HeapFileScan} (hs : s'.toHeapFile = s.toHeapFile) :
    Part1.ScanOn { C with keep := s'.matchRec } s' w p R qs :=
  ⟨h.toScanAt.withFilter hs, hs ▸ h.header, hs ▸ h.headerPageNo, hs ▸ h.hdrClean, hs ▸ h.onPage⟩

/-- The part_001 constructor opens the file and pins its header page and its
first data page, before that page's first slot, with no predicate. -/
theorem new {name : String} (hR : Reading C.w₀ C.g C.u₁ C.u₂ (fun _ => 0) C.w₀)
    (hopen : C.w₀.db.openFile name = .ok C.f) (h0 : 0 ≤ C.w₀.db.first C.f) (hkeep : C.keep = fun _ => true)
    (hc : Chain C.pg (C.w₀.header C.f).firstPage (p :: qs)) :
    (Part1.HeapFileScan.new C.w₀ name).1 = .OK ∧ Part1.ScanOn C (Part1.HeapFileScan.new C.w₀ name).2.1
      (Part1.HeapFileScan.new C.w₀ name).2.2 p (C.pg p).live qs := by
  obtain ⟨j₁, w1, hr1, hf1, hb1, hR1⟩ := hR.readPage C.f (C.w₀.db.first C.f)
    (.inr (hR.free C.distinct fun _ => Nat.zero_le (onePin C.hdrKey _)))
  obtain ⟨j₂, w2, hr2, hf2, -, hR2⟩ := hR1.readPage C.f p (.inr (hR1.free C.distinct fun _ => (Nat.zero_add _).le))
  have hhdr : (w1.frame j₁).toHdr = C.w₀.header C.f := by rw [World.frame_natCast, hb1]; rfl
  obtain ⟨hp, hne, -, -⟩ := hc.of_cons
  have hlt : ¬ C.w₀.db.first C.f < 0 := by omega
  simp only [Part1.HeapFileScan.new, Part1.HeapFile.new, hopen, Db.getFirstPage, hlt, if_false, hr1,
    Part1.HeapFile.readFirst, HeapFile.hdr, Option.getD_some, hhdr, hp, ne_eq, hne, not_false_eq_true, if_true, hr2]
  exact ⟨trivial, ScanAt.start (hR2.congr fun _ => by rw [Nat.zero_add]; rfl) rfl (by rw [hkeep]; rfl) rfl rfl rfl
    rfl hf2 (hp ▸ hc), ⟨j₁, rfl, hR1.find_readPage (by simp [onePin, WalkCtx.hdrKey]) hf1 hr2⟩, rfl, rfl, .inl rfl⟩

/-- From any position, going back to the first page unpins the current page and
reads the chain's first page: the scan stands before its first slot. -/
theorem rewind {p₀ : Int} {qs₀ : List Int} (h : Part1.ScanOn C s w p R qs)
    (hc : Chain C.pg (C.w₀.header C.f).firstPage (p₀ :: qs₀)) :
    (Part1.HeapFileScan.rewind s w).1 = .OK ∧ Part1.ScanOn C (Part1.HeapFileScan.rewind s w).2.1
      (Part1.HeapFileScan.rewind s w).2.2 p₀ (C.pg p₀).live qs₀ := by
  obtain ⟨j, hcur, -⟩ := h.frame
  obtain ⟨i, hi, hfi⟩ := h.header
  obtain ⟨w1, hu, hR1⟩ := h.unpin
  obtain ⟨j₂, w2, hr, hf, -, hR2⟩ := hR1.readPage C.f p₀ (.inr (hR1.free C.distinct fun _ => Nat.le_refl _))
  have hfi1 : w1.pool.hashTable.find C.hdrKey = some (i : Int) := by rw [h.reading.hashTable_unPinPage hu]; exact hfi
  have hhdr : (w1.frame i).toHdr = C.w₀.header C.f := by
    rw [World.frame_natCast, ← logical_of_find hfi1, hR1.logical C.hdrKey (C.fresh _)]; rfl
  obtain ⟨hp, hne, -, -⟩ := hc.of_cons
  simp only [Part1.HeapFileScan.rewind, hcur, h.file, h.curPageNo, h.clean, hu, Part1.HeapFileScan.readFirstPage, hi,
    HeapFile.hdr, Option.getD_some, hhdr, hp, hne, if_false, hr]
  exact ⟨trivial, ScanAt.start hR2 rfl h.keep rfl rfl rfl rfl hf (hp ▸ hc),
    ⟨i, rfl, hR1.find_readPage (by simp [onePin]) hfi1 hr⟩, h.headerPageNo, h.hdrClean, .inl rfl⟩

/-- `startScan` with no filter or an accepted one, from any position: the scan
stands before the chain's first slot, with the predicate its arguments describe. -/
theorem startScan {p₀ : Int} {qs₀ : List Int} (h : Part1.ScanOn C s w p R qs)
    (hc : Chain C.pg (C.w₀.header C.f).firstPage (p₀ :: qs₀)) {offset length : Int} {type : Datatype}
    {filter : Option (List UInt8)} (op : Operator)
    (hparm : filter = none ∨ HeapFileScan.ScanParmOk offset length type) :
    let r : Status × HeapFileScan × World := Part1.HeapFileScan.startScan s w offset length type filter op
    r.1 = .OK ∧ Part1.ScanOn { C with keep := HeapFileScan.selects offset length type filter op } r.2.1 r.2.2 p₀
      (C.pg p₀).live qs₀ := by
  intro r
  let s1 : HeapFileScan :=
    { (s.startScan offset length type filter op).2 with markedPageNo := -1, markedRec := NULLRID }
  have e : s.startScan offset length type filter op = (.OK, (s.startScan offset length type filter op).2) :=
    Prod.ext (s.startScan_ok op hparm) rfl
  have hr : r = Part1.HeapFileScan.rewind s1 w := by
    simp only [r, Part1.HeapFileScan.startScan]; rw [e]
  have hs1 : s1.toHeapFile = s.toHeapFile := s.startScan_toHeapFile offset length type filter op
  have hk : s1.matchRec = HeapFileScan.selects offset length type filter op :=
    Minirel.HeapFileScan.startScan_matchRec s (s.startScan_ok op hparm)
  obtain ⟨hok, h'⟩ := (h.withFilter' hs1).rewind hc
  rw [hk] at h'
  rw [hr]
  exact ⟨hok, h'⟩

end Part1.ScanOn

variable {C : ScanCtx}

/-- From `ScanOn`, the loop of one part_001 `scanNext` call returns the first
matching record ahead and stops on it, or returns FILEEOF and stays at the end
of the chain, within `measure R qs + 1` iterations. -/
theorem Part1.scanLoop_answers : ∀ (n : Nat) {s : HeapFileScan} {w : World} {p : Int} {R : List (Nat × Record)}
    {qs : List Int}, Part1.ScanOn C s w p R qs → C.measure R qs < n →
    ∃ s' w', Part1.HeapFileScan.scanLoop n s w = some (answer (C.matching p R qs), s', w') ∧
      Part1.Scanning C (C.measure R qs + 1) (C.matching p R qs).tail s' w'
  | 0, _, _, _, _, _, _, hn => absurd hn (Nat.not_lt_zero _)
  | n + 1, _, w, p, e :: R, qs, h, hn => by
    obtain ⟨s', h', heq⟩ := h.loop_consume
    rw [heq, WalkCtx.matching_cons, WalkCtx.measure_cons]
    rw [WalkCtx.measure_cons] at hn
    by_cases hk : C.keep e.2
    · simp only [if_pos hk, answer, List.tail_cons]
      exact ⟨s', w, rfl, p, R, qs, h', rfl, by omega⟩
    · simp only [if_neg hk]
      obtain ⟨s'', w'', hl, hs⟩ := Part1.scanLoop_answers n h' (by omega)
      exact ⟨s'', w'', hl, hs.mono (by omega)⟩
  | n + 1, _, _, _, [], q :: qs, h, hn => by
    obtain ⟨s', w', h', heq⟩ := h.loop_advance
    rw [heq, WalkCtx.matching_next, WalkCtx.measure_next]
    rw [WalkCtx.measure_next] at hn
    obtain ⟨s'', w'', hl, hs⟩ := Part1.scanLoop_answers n h' (by omega)
    exact ⟨s'', w'', hl, hs.mono (by omega)⟩
  | n + 1, s, w, p, [], [], h, _ => ⟨s, w, h.loop_finish n, p, [], [], h, rfl, Nat.zero_lt_one⟩

/-- One part_001 `scanNext` call answers the next matching record, or FILEEOF
once there is none. -/
theorem Part1.scanNext_answers {n : Nat} {rem : List (RID × Record)} {s : HeapFileScan} {w : World}
    (h : Part1.Scanning C n rem s w) :
    ∃ s' w', Part1.HeapFileScan.scanNext n s w = some (answer rem, s', w') ∧ Part1.Scanning C n rem.tail s' w' := by
  obtain ⟨p, R, qs, h, rfl, hlt⟩ := h
  obtain ⟨j, hc, -⟩ := h.frame
  obtain ⟨i, hh, -⟩ := h.header
  obtain ⟨s', w', hl, hs⟩ := Part1.scanLoop_answers n h hlt
  exact ⟨s', w', by simp only [Part1.HeapFileScan.scanNext, hh, hc]; exact hl, hs.mono hlt⟩

/-- After `k` calls the part_001 scan has handed out the first `k` matching records. -/
theorem Part1.afterScans_scanning {n : Nat} : ∀ (k : Nat) {rem : List (RID × Record)} {s : HeapFileScan}
    {w : World}, Part1.Scanning C n rem s w →
    ∃ s' w', Part1.afterScans n k s w = some (s', w') ∧ Part1.Scanning C n (rem.drop k) s' w'
  | 0, _, s, w, h => ⟨s, w, rfl, h⟩
  | k + 1, rem, _, _, h => by
    obtain ⟨s1, w1, hs, h1⟩ := Part1.scanNext_answers h
    obtain ⟨s2, w2, ha, h2⟩ := Part1.afterScans_scanning k h1
    refine ⟨s2, w2, by simp only [Part1.afterScans, hs]; exact ha, ?_⟩
    rwa [List.drop_tail] at h2

/-- The answers of `k` part_001 calls: the matching records still to come, one a
call, then FILEEOF. -/
theorem Part1.Scanning.answers {n : Nat} : ∀ (k : Nat) {rem : List (RID × Record)} {s : HeapFileScan} {w : World},
    Part1.Scanning C n rem s w → Part1.scanAnswers n k s w = some ((List.range k).map fun i => answer (rem.drop i))
  | 0, _, _, _, _ => rfl
  | k + 1, rem, _, _, h => by
    obtain ⟨s', w', hs, h'⟩ := Part1.scanNext_answers h
    simp only [Part1.scanAnswers, hs, Part1.Scanning.answers k h', Option.map_some', List.range_succ_eq_map,
      List.map_cons, List.map_map, List.drop_zero]
    congr 2
    exact List.map_congr_left fun i _ => by simp only [Function.comp, List.drop_tail]

/-- The pool's pins while the part_001 scan stands anywhere: the start's, the
header page's and the current data page's. -/
theorem Part1.Scanning.pins {m : Nat} {rem : List (RID × Record)} {s : HeapFileScan} {w : World}
    (h : Part1.Scanning C m rem s w) (k : Key) :
    pinOf w.pool k = pinOf C.w₀.pool k + onePin C.hdrKey k + onePin (some C.f, s.curPageNo) k := by
  obtain ⟨p, R, qs, h, -, -⟩ := h
  rw [h.reading.ledger, ScanCtx.held, h.curPageNo, Nat.add_assoc]

/-- The destructor unpins the current page and the header page: the pool's pins
are the start's again. -/
theorem Part1.Scanning.destructor_pins {m : Nat} {rem : List (RID × Record)} {s : HeapFileScan} {w : World}
    (h : Part1.Scanning C m rem s w) (k : Key) :
    pinOf (Part1.HeapFileScan.destructor s w).pool k = pinOf C.w₀.pool k := by
  obtain ⟨p, R, qs, h, -, -⟩ := h
  obtain ⟨j, hc, -⟩ := h.frame
  obtain ⟨i, hh, -⟩ := h.header
  obtain ⟨w1, hu, hR1⟩ := h.unpin
  obtain ⟨w2, hu2, hR2⟩ := hR1.unPinPage (f := C.f) (p := C.w₀.db.first C.f) (by simp [onePin, WalkCtx.hdrKey])
  have hd : Part1.HeapFileScan.destructor s w = w2 := by
    simp only [Part1.HeapFileScan.destructor, Part1.HeapFileScan.endScan, Part1.HeapFile.destructor,
      Part1.HeapFile.unpinCur, hc,
      h.file, h.curPageNo, h.clean, hu, hh, h.headerPageNo, h.hdrClean, hu2]
  rw [hd, hR2.ledger]
  simp [onePin, WalkCtx.hdrKey]

/-! ## From the constructor -/

section Start

variable {w₀ : World} {g : Ghost} {u₁ u₂ : Nat} {name : String} {f : FileId} {p : Int} {qs : List Int}

/-- A part_001 `HeapFileScan` opened on a file whose data pages form a chain
from the header's `firstPage`, then `startScan` with no filter or an accepted
one, then `scanNext` again and again, in a pool where every file read and write
succeeds, no page of the file is fresh, and two frames are unpinned at the
start. The header page number is not negative (the constructor checks it). Call
number `k` returns the `k`-th record of `M` (the chain's live records that the
predicate of `startScan`'s arguments accepts, in chain and slot order, with
pairwise distinct RIDs), and FILEEOF once `M` is exhausted. Before each call the
pool's pins are those of the start plus one on the header page and one on the
current data page; after the last match the last data page stays pinned. The
destructor then leaves the pins of the start. -/
theorem Part1.scan_hands_out_matches (hrw : w₀.io.ReadWriteOk) (hc : ContentInv (w₀.pool, g))
    (hfresh : ∀ q, g.fresh (some f, q) = false) (hne : u₁ ≠ u₂) (h₁ : u₁ < w₀.pool.numBufs)
    (h₂ : u₂ < w₀.pool.numBufs) (hp₁ : (w₀.pool.bufTable u₁).pinCnt = 0) (hp₂ : (w₀.pool.bufTable u₂).pinCnt = 0)
    (hopen : w₀.db.openFile name = .ok f) (h0 : 0 ≤ w₀.db.first f)
    (hchain : Chain (w₀.dataPage f) (w₀.header f).firstPage (p :: qs))
    (offset length : Int) (type : Datatype) (filter : Option (List UInt8)) (op : Operator)
    (hparm : filter = none ∨ HeapFileScan.ScanParmOk offset length type) :
    let o : Status × HeapFileScan × World := Part1.HeapFileScan.new w₀ name
    let st : Status × HeapFileScan × World := Part1.HeapFileScan.startScan o.2.1 o.2.2 offset length type filter op
    let M : List (RID × Record) :=
      (chainRecords (w₀.dataPage f) (p :: qs)).filter fun x => HeapFileScan.selects offset length type filter op x.2
    o.1 = .OK ∧ st.1 = .OK ∧ (M.map Prod.fst).Nodup ∧ ∀ n, scanBound (w₀.dataPage f) (p :: qs) ≤ n → ∀ k,
      ∃ s w, Part1.afterScans n k st.2.1 st.2.2 = some (s, w) ∧
        (∀ key, pinOf w.pool key = pinOf w₀.pool key + onePin (some f, w₀.db.first f) key +
          onePin (some f, s.curPageNo) key) ∧
        (∃ s' w', Part1.HeapFileScan.scanNext n s w = some (answer (M.drop k), s', w')) ∧
        ∀ key, pinOf (Part1.HeapFileScan.destructor s w).pool key = pinOf w₀.pool key := by
  intro o st M
  let C₀ : ScanCtx := ⟨⟨w₀, f, fun _ => true⟩, g, u₁, u₂, hfresh, hne⟩
  obtain ⟨hok, h0'⟩ := Part1.ScanOn.new (C := C₀) (Reading.start hrw hc h₁ h₂ hp₁ hp₂) hopen h0 rfl hchain
  obtain ⟨hst, h1⟩ := h0'.startScan hchain op hparm
  refine ⟨hok, hst, (chainRecords_nodup _ hchain.nodup).sublist ((List.filter_sublist _).map _), fun n hn k => ?_⟩
  have hS : Part1.Scanning { C₀ with keep := HeapFileScan.selects offset length type filter op } n M st.2.1 st.2.2 :=
    ⟨p, _, qs, h1, rfl, Nat.lt_of_lt_of_le (Nat.lt_of_lt_of_eq (Nat.lt_succ_self _) (WalkCtx.measure_start p qs)) hn⟩
  obtain ⟨s, w, ha, hs⟩ := Part1.afterScans_scanning k hS
  obtain ⟨s', w', hn', -⟩ := Part1.scanNext_answers hs
  exact ⟨s, w, ha, hs.pins, ⟨s', w', hn'⟩, hs.destructor_pins⟩

/-- `twoRecordWorld`'s file `t`, with pages 1 and 2 on its chain, scanned by the
part_001 version with the filter `= (2)` on the first byte: it rejects the
record of page 1 and accepts the record of page 2. -/
theorem Part1.scan_hands_out_matches_filtered :
    let o : Status × HeapFileScan × World := Part1.HeapFileScan.new twoRecordWorld "t"
    let st : Status × HeapFileScan × World := Part1.HeapFileScan.startScan o.2.1 o.2.2 0 1 .STRING (some [2]) .EQ
    let M : List (RID × Record) :=
      (chainRecords (twoRecordWorld.dataPage 0) [1, 2]).filter
        fun x => HeapFileScan.selects 0 1 .STRING (some [2]) .EQ x.2
    M.map Prod.snd = [⟨[2]⟩] ∧
    o.1 = .OK ∧ st.1 = .OK ∧ (M.map Prod.fst).Nodup ∧ ∀ n, scanBound (twoRecordWorld.dataPage 0) [1, 2] ≤ n → ∀ k,
      ∃ s w, Part1.afterScans n k st.2.1 st.2.2 = some (s, w) ∧
        (∀ key, pinOf w.pool key = pinOf twoRecordWorld.pool key + onePin (some 0, twoRecordWorld.db.first 0) key +
          onePin (some 0, s.curPageNo) key) ∧
        (∃ s' w', Part1.HeapFileScan.scanNext n s w = some (answer (M.drop k), s', w')) ∧
        ∀ key, pinOf (Part1.HeapFileScan.destructor s w).pool key = pinOf twoRecordWorld.pool key :=
  ⟨by decide, Part1.scan_hands_out_matches (g := ⟨fun _ => false, fun _ => false⟩)
    (⟨fun _ => rfl, fun _ => rfl⟩ : twoRecordWorld.io.ReadWriteOk)
    (contentInv_inductive.init _ ⟨⟨3, _, by decide, rfl⟩, rfl⟩) (fun _ => rfl) (by decide : 0 ≠ 1)
    (by decide) (by decide) rfl rfl (rfl : twoRecordWorld.db.openFile "t" = .ok 0) (by decide)
    (.cons (by decide) rfl (.cons (by decide) rfl .nil)) 0 1 .STRING (some [2]) .EQ (.inr (by decide))⟩

/-- The two versions of `heapfile.C` scan alike: on the same file, from the same
world, with the same predicate, stage4's scan and part_001's answer the same
calls of `scanNext` with the same results, however many calls are made, each
with the iteration bound `scanBound` or more. -/
theorem scan_versions_agree (hrw : w₀.io.ReadWriteOk) (hc : ContentInv (w₀.pool, g))
    (hfresh : ∀ q, g.fresh (some f, q) = false) (hne : u₁ ≠ u₂) (h₁ : u₁ < w₀.pool.numBufs)
    (h₂ : u₂ < w₀.pool.numBufs) (hp₁ : (w₀.pool.bufTable u₁).pinCnt = 0) (hp₂ : (w₀.pool.bufTable u₂).pinCnt = 0)
    (hopen : w₀.db.openFile name = .ok f) (h0 : 0 ≤ w₀.db.first f)
    (hchain : Chain (w₀.dataPage f) (w₀.header f).firstPage (p :: qs))
    (offset length : Int) (type : Datatype) (filter : Option (List UInt8)) (op : Operator)
    (hparm : filter = none ∨ HeapFileScan.ScanParmOk offset length type) :
    let o : Status × HeapFileScan × World := HeapFileScan.new w₀ name
    let st : Status × HeapFileScan := o.2.1.startScan offset length type filter op
    let o' : Status × HeapFileScan × World := Part1.HeapFileScan.new w₀ name
    let st' : Status × HeapFileScan × World := Part1.HeapFileScan.startScan o'.2.1 o'.2.2 offset length type filter op
    ∀ n, scanBound (w₀.dataPage f) (p :: qs) ≤ n → ∀ k,
      Part1.scanAnswers n k st'.2.1 st'.2.2 = scanAnswers n k st.2 o.2.2 := by
  intro o st o' st' n hn k
  let C₀ : ScanCtx := ⟨⟨w₀, f, fun _ => true⟩, g, u₁, u₂, hfresh, hne⟩
  have hR := Reading.start hrw hc h₁ h₂ hp₁ hp₂ (g := g)
  have hlt : C₀.measure (C₀.pg p).live qs < n :=
    Nat.lt_of_lt_of_le (Nat.lt_of_lt_of_eq (Nat.lt_succ_self _) (WalkCtx.measure_start p qs)) hn
  obtain ⟨-, h4⟩ := ScanAt.new_scanAt (C := C₀) hR hopen rfl hchain
  have hS4 : Scanning { C₀ with keep := HeapFileScan.selects offset length type filter op } n _ st.2 o.2.2 :=
    .inr ⟨p, _, qs, h4.startScan op hparm, rfl, hlt⟩
  obtain ⟨-, h1⟩ := Part1.ScanOn.new (C := C₀) hR hopen h0 rfl hchain
  obtain ⟨-, h1'⟩ := h1.startScan hchain op hparm
  rw [Part1.Scanning.answers k ⟨p, _, qs, h1', rfl, hlt⟩, Scanning.answers k hS4]

/-- `twoPageWorld`'s file `t` scanned by both versions with no filter. -/
theorem scan_versions_agree_two_pages :
    let o : Status × HeapFileScan × World := HeapFileScan.new twoPageWorld "t"
    let st : Status × HeapFileScan := o.2.1.startScan 0 0 .STRING none .EQ
    let o' : Status × HeapFileScan × World := Part1.HeapFileScan.new twoPageWorld "t"
    let st' : Status × HeapFileScan × World := Part1.HeapFileScan.startScan o'.2.1 o'.2.2 0 0 .STRING none .EQ
    ∀ n, scanBound (twoPageWorld.dataPage 0) [1, 2] ≤ n → ∀ k,
      Part1.scanAnswers n k st'.2.1 st'.2.2 = scanAnswers n k st.2 o.2.2 :=
  scan_versions_agree (g := ⟨fun _ => false, fun _ => false⟩)
    (⟨fun _ => rfl, fun _ => rfl⟩ : twoPageWorld.io.ReadWriteOk)
    (contentInv_inductive.init _ ⟨⟨3, _, by decide, rfl⟩, rfl⟩) (fun _ => rfl) (by decide : 0 ≠ 1)
    (by decide) (by decide) rfl rfl (rfl : twoPageWorld.db.openFile "t" = .ok 0) (by decide)
    (.cons (by decide) rfl (.cons (by decide) rfl .nil)) 0 0 .STRING none .EQ (.inl rfl)

/-- part_001's `startScan` starts over: after any number of calls of
`scanNext` (past FILEEOF included), a `startScan` with no filter or an accepted
one is followed by the records the predicate of its arguments accepts, from the
first one of the chain, then FILEEOF. -/
theorem Part1.startScan_restarts (hrw : w₀.io.ReadWriteOk) (hc : ContentInv (w₀.pool, g))
    (hfresh : ∀ q, g.fresh (some f, q) = false) (hne : u₁ ≠ u₂) (h₁ : u₁ < w₀.pool.numBufs)
    (h₂ : u₂ < w₀.pool.numBufs) (hp₁ : (w₀.pool.bufTable u₁).pinCnt = 0) (hp₂ : (w₀.pool.bufTable u₂).pinCnt = 0)
    (hopen : w₀.db.openFile name = .ok f) (h0 : 0 ≤ w₀.db.first f)
    (hchain : Chain (w₀.dataPage f) (w₀.header f).firstPage (p :: qs))
    (offset length : Int) (type : Datatype) (filter : Option (List UInt8)) (op : Operator)
    (hparm : filter = none ∨ HeapFileScan.ScanParmOk offset length type)
    (offset' length' : Int) (type' : Datatype) (filter' : Option (List UInt8)) (op' : Operator)
    (hparm' : filter' = none ∨ HeapFileScan.ScanParmOk offset' length' type') :
    let o : Status × HeapFileScan × World := Part1.HeapFileScan.new w₀ name
    let st : Status × HeapFileScan × World := Part1.HeapFileScan.startScan o.2.1 o.2.2 offset length type filter op
    let M : List (RID × Record) :=
      (chainRecords (w₀.dataPage f) (p :: qs)).filter
        fun x => HeapFileScan.selects offset' length' type' filter' op' x.2
    ∀ n, scanBound (w₀.dataPage f) (p :: qs) ≤ n → ∀ k, ∃ s w, Part1.afterScans n k st.2.1 st.2.2 = some (s, w) ∧
      let st' : Status × HeapFileScan × World := Part1.HeapFileScan.startScan s w offset' length' type' filter' op'
      st'.1 = .OK ∧ ∀ k', Part1.scanAnswers n k' st'.2.1 st'.2.2 = some ((List.range k').map fun i => answer (M.drop i))
    := by
  intro o st M n hn k
  let C₀ : ScanCtx := ⟨⟨w₀, f, fun _ => true⟩, g, u₁, u₂, hfresh, hne⟩
  have hlt : C₀.measure (C₀.pg p).live qs < n :=
    Nat.lt_of_lt_of_le (Nat.lt_of_lt_of_eq (Nat.lt_succ_self _) (WalkCtx.measure_start p qs)) hn
  obtain ⟨-, h0'⟩ := Part1.ScanOn.new (C := C₀) (Reading.start hrw hc h₁ h₂ hp₁ hp₂) hopen h0 rfl hchain
  obtain ⟨-, h1⟩ := h0'.startScan hchain op hparm
  obtain ⟨s, w, ha, p₁, R₁, qs₁, hs, -, -⟩ := Part1.afterScans_scanning k (⟨p, _, qs, h1, rfl, hlt⟩ :
    Part1.Scanning { C₀ with keep := HeapFileScan.selects offset length type filter op } n _ st.2.1 st.2.2)
  obtain ⟨hst, h2⟩ := hs.startScan hchain op' hparm'
  exact ⟨s, w, ha, hst, fun k' => Part1.Scanning.answers k' ⟨p, _, qs, h2, rfl, hlt⟩⟩

/-- Scan `twoRecordWorld`'s file `t` with no filter, then start over with the
filter `= (2)` on the first byte, which rejects the record of page 1. -/
theorem Part1.startScan_restarts_filtered :
    let o : Status × HeapFileScan × World := Part1.HeapFileScan.new twoRecordWorld "t"
    let st : Status × HeapFileScan × World := Part1.HeapFileScan.startScan o.2.1 o.2.2 0 0 .STRING none .EQ
    let M : List (RID × Record) :=
      (chainRecords (twoRecordWorld.dataPage 0) [1, 2]).filter
        fun x => HeapFileScan.selects 0 1 .STRING (some [2]) .EQ x.2
    M.map Prod.snd = [⟨[2]⟩] ∧
    ∀ n, scanBound (twoRecordWorld.dataPage 0) [1, 2] ≤ n → ∀ k, ∃ s w,
      Part1.afterScans n k st.2.1 st.2.2 = some (s, w) ∧
      let st' : Status × HeapFileScan × World := Part1.HeapFileScan.startScan s w 0 1 .STRING (some [2]) .EQ
      st'.1 = .OK ∧ ∀ k', Part1.scanAnswers n k' st'.2.1 st'.2.2 = some ((List.range k').map fun i => answer (M.drop i))
    :=
  ⟨by decide, Part1.startScan_restarts (g := ⟨fun _ => false, fun _ => false⟩)
    (⟨fun _ => rfl, fun _ => rfl⟩ : twoRecordWorld.io.ReadWriteOk)
    (contentInv_inductive.init _ ⟨⟨3, _, by decide, rfl⟩, rfl⟩) (fun _ => rfl) (by decide : 0 ≠ 1)
    (by decide) (by decide) rfl rfl (rfl : twoRecordWorld.db.openFile "t" = .ok 0) (by decide)
    (.cons (by decide) rfl (.cons (by decide) rfl .nil)) 0 0 .STRING none .EQ (.inl rfl) 0 1 .STRING (some [2]) .EQ
    (.inr (by decide))⟩

end Start

end Minirel
