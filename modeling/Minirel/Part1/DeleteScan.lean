import Minirel.Query.Delete
import Minirel.Part1.Scan

/-!
# `QU_Delete` over the other heap-file version

`QU_Delete` (`src/stage6/delete.C`) uses only the `HeapFileScan` interface of
`heapfile.h`, so it runs as well over part_001's `heapfile.C`
(`src/unnamed/part_001`). There the scan behaves differently in three ways:

* `startScan` unpins the first data page and reads it again;
* `deleteRecord` first checks that the scan stands on a record;
* at FILEEOF the scan keeps the last page pinned, so that page is unpinned,
  dirty, only by the destructor's `endScan`.

The walk is stage4's (`Minirel.Heap.DeleteScan`). `Part1.DelOn` is `DelAt` with
`curRec` NULL or on the current page. Each step of part_001's loop is a step of
`DelAt`, and the deletions are stage4's `deleteRecord`.

* `Part1.HeapFile.new_eq`, `Part1.HeapFileScan.deleteRecord_eq`: where stage4's
  constructor reads both pages and the header page number is not negative,
  part_001's does the same. On a record of a pinned page, part_001's
  `deleteRecord` is stage4's.
* `Part1.DelOn.loop_consume`, `consume_skip`, `consume_delete`, `advance`,
  `loop_finish`: one iteration of the loop of `scanNext`. At the end of the last
  page the loop returns FILEEOF and the scan stays.
* `Part1.delLoop_step` (the step, by induction on the walk), `Part1.delStep` and
  `Part1.deleteLoop_deletes` (the run).
* `DelAt.part1_rewind`, `Part1.DelOn.start`, `DelAt.part1_destructor`: the
  constructor with `startScan`, which reads the first page again, and the
  destructor at the end.

**Results.**
* `Part1.deleteScan_removes_matches`: on a file whose data pages form a chain
  of page numbers that are not negative, `QU_Delete` over part_001's scan
  returns OK. `scanNext` returned each record the predicate accepts once, in
  chain and slot order, and each was deleted. The chain then holds exactly the
  records the predicate rejects, `recCnt` is down by the number deleted, and
  the pool is settled again with the pins it had before. This is the
  conclusion of `delete_removes_matches` for stage4: the two versions delete
  the same records and leave the same chain.
-/
namespace Minirel

open BufMgr

/-! ## Where the versions agree -/

/-- Where stage4's constructor reads the header page and a first data page that
is not -1, and the header page number is not negative, part_001's constructor
does the same: its extra checks pass. -/
theorem Part1.HeapFile.new_eq {w : World} {name : String} (hc : (Minirel.HeapFile.new w name).2.1.curPage.isSome)
    (h0 : 0 ≤ (Minirel.HeapFile.new w name).2.1.headerPageNo)
    (hn : (Minirel.HeapFile.new w name).2.1.curPageNo ≠ -1) :
    Part1.HeapFile.new w name = Minirel.HeapFile.new w name := by
  unfold Minirel.HeapFile.new at hc h0 hn ⊢
  unfold Part1.HeapFile.new
  rcases ho : w.db.openFile name with e | f
  · rfl
  rcases hr1 : w.readPage (some f) (w.db.getFirstPage f) with ⟨e | j₁, w1⟩
  · simp only [ho, hr1] at hc; cases hc
  rcases hr2 : w1.readPage (some f) (w1.frame j₁).toHdr.firstPage with ⟨e | j₂, w2⟩
  · simp only [ho, hr1, HeapFile.hdr, Option.getD_some, hr2] at hc; cases hc
  simp only [ho, hr1, HeapFile.hdr, Option.getD_some, hr2] at h0 hn ⊢
  simp only [Part1.HeapFile.readFirst, not_lt.2 h0, if_false, HeapFile.hdr, Option.getD_some, ne_eq, hn,
    not_false_eq_true, if_true, hr2]

/-- Stage4's `deleteRecord` leaves `curRec`. -/
theorem HeapFileScan.deleteRecord_curRec (s : HeapFileScan) (w : World) :
    (s.deleteRecord w).2.1.curRec = s.curRec := by
  unfold HeapFileScan.deleteRecord; split <;> rfl

/-- mirrors part_001:388-401 against heapfile.C:461-473: with a current page, a
header page and `curRec` on a page that is not negative, part_001's
`deleteRecord` is stage4's. -/
theorem Part1.HeapFileScan.deleteRecord_eq {s : HeapFileScan} {w : World} (hc : s.curPage.isSome)
    (hp : 0 ≤ s.curRec.pageNo) (hh : s.headerPage.isSome) :
    Part1.HeapFileScan.deleteRecord s w = s.deleteRecord w := by
  obtain ⟨j, hj⟩ := Option.isSome_iff_exists.1 hc
  obtain ⟨i, hi⟩ := Option.isSome_iff_exists.1 hh
  unfold Part1.HeapFileScan.deleteRecord Minirel.HeapFileScan.deleteRecord
  rcases hd : (s.page w).deleteRecord s.curRec with e | P <;>
    simp only [hj, Option.isNone_some, Bool.false_eq_true, false_or, not_lt.2 hp, if_false, hd, hi]
  rfl

/-! ## The walk -/

/-- part_001's deleting scan on page `p`: stage4's `DelAt`, with `curRec` NULL
or on page `p`, where part_001's `nextRid` asks for the slot stage4's asks
for. -/
structure Part1.DelOn (C : DelCtx) (s : HeapFileScan) (w : World) (done : List Int) (d : Nat) (p : Int)
    (R : List (Nat × Record)) (qs : List Int) extends DelAt C s w done d p R qs : Prop where
  onPage : s.curRec = NULLRID ∨ s.curRec.pageNo = p ∧ s.curRec.slotNo ≠ -1

namespace Part1.DelOn

variable {C : DelCtx} {s : HeapFileScan} {w : World} {done : List Int} {d : Nat} {p : Int}
  {R : List (Nat × Record)} {qs : List Int}

/-- On the walk, part_001's `nextRid` asks for the slot stage4's asks for. -/
theorem nextRid_eq (h : Part1.DelOn C s w done d p R qs) : Part1.HeapFileScan.nextRid s w = s.nextRid w :=
  Part1.HeapFileScan.nextRid_eq_of h.chain.of_cons.2.1 h.curPageNo h.onPage

/-- A live slot ahead: the loop hands it out, and stops on it if the predicate
accepts it. -/
theorem loop_consume {e : Nat × Record} (h : Part1.DelOn C s w done d p (e :: R) qs) (n : Nat) :
    Part1.HeapFileScan.scanLoop (n + 1) s w =
      if C.keep e.2 then some (.ok ⟨p, e.1⟩, { s with curRec := ⟨p, e.1⟩ }, w)
      else Part1.HeapFileScan.scanLoop n { s with curRec := ⟨p, e.1⟩ } w := by
  have hr : (s.page w).getRecord ⟨p, e.1⟩ = .ok e.2 := h.getRecord_next.1
  have hk : ({ s with curRec := ⟨p, e.1⟩ } : HeapFileScan).matchRec = C.keep := h.keep
  simp only [Part1.HeapFileScan.scanLoop, h.nextRid_eq, h.toDelAt.nextRid_eq, hr, hk]

/-- A live slot ahead that the predicate rejects: the walk passes it. -/
theorem consume_skip {e : Nat × Record} (h : Part1.DelOn C s w done d p (e :: R) qs) (hk : C.keep e.2 = false) :
    Part1.DelOn C { s with curRec := ⟨p, e.1⟩ } w done d p R qs :=
  ⟨h.toDelAt.consume_skip hk, .inr ⟨rfl, by show (e.1 : Int) ≠ -1; omega⟩⟩

/-- A live slot ahead that the predicate accepts, on a page that is not
negative: once the walk stops on it, part_001's `deleteRecord` deletes it. -/
theorem consume_delete {e : Nat × Record} (h : Part1.DelOn C s w done d p (e :: R) qs) (hk : C.keep e.2 = true)
    (hp : 0 ≤ p) :
    ∃ s' w', Part1.HeapFileScan.deleteRecord { s with curRec := ⟨p, e.1⟩ } w = (.OK, s', w') ∧
      Part1.DelOn C s' w' done (d + 1) p R qs := by
  obtain ⟨s', w', hdel, h'⟩ := h.toDelAt.consume_delete hk
  obtain ⟨j, hc, -⟩ := h.holds.curFrame
  obtain ⟨i, hh, -⟩ := h.holds.hdrFrame
  have hr := HeapFileScan.deleteRecord_curRec { s with curRec := ⟨p, e.1⟩ } w
  rw [hdel] at hr
  exact ⟨s', w', (Part1.HeapFileScan.deleteRecord_eq (by simp [hc]) hp (by simp [hh])).trans hdel, h',
    .inr ⟨by rw [hr], by rw [hr]; show (e.1 : Int) ≠ -1; omega⟩⟩

/-- The end of page `p`, with page `q` next on the chain: the loop unpins `p`
(dirty if the walk deleted on it), reads `q` and goes on from before `q`'s
first slot. -/
theorem advance {q : Int} (h : Part1.DelOn C s w done d p [] (q :: qs)) (n : Nat) :
    ∃ s' w', Part1.DelOn C s' w' (done ++ [p]) d q (C.pg q).live qs ∧
      Part1.HeapFileScan.scanLoop (n + 1) s w = Part1.HeapFileScan.scanLoop n s' w' := by
  obtain ⟨w1, j, w2, hu, -, hr, h'⟩ := h.moveTo (by rw [h.split, List.append_assoc]; rfl) h.passed h.aheadPages
  obtain ⟨hnext, hq, -, -⟩ := h.chain.of_cons.2.2.2.of_cons
  refine ⟨_, w2, ⟨h', .inl rfl⟩, ?_⟩
  rcases h.endOfPage with he | he <;>
    simp only [Part1.HeapFileScan.scanLoop, h.nextRid_eq, he, h.page_eq, (h.links p h.mem_cur).2, hnext,
      if_neg hq, h.holds.file, h.curPageNo, hu, hr, HeapFileScan.atPage]

/-- The end of the last page: the loop returns FILEEOF and the scan stays,
with the last page pinned. -/
theorem loop_finish (h : Part1.DelOn C s w done d p [] []) (n : Nat) :
    Part1.HeapFileScan.scanLoop (n + 1) s w = some (.error .FILEEOF, s, w) := by
  rcases h.endOfPage with he | he <;>
    simp only [Part1.HeapFileScan.scanLoop, h.nextRid_eq, he, h.page_eq, (h.links p h.mem_cur).2,
      h.chain.of_cons.2.2.2.eq_neg_one, if_true]

end Part1.DelOn

/-! ## The client -/

/-- mirrors delete.C:96-106 over part_001's `HeapFileScan`: the `while` loop of
`QU_Delete` with at most `k` iterations, each `scanNext` with at most `n`
iterations of its own loop; as `deleteLoop` for stage4. -/
def Part1.deleteLoop (n : Nat) : Nat → HeapFileScan → World → Option (Status × List RID × HeapFileScan × World)
  | 0, _, _ => none
  | k + 1, s, w =>
    match Part1.HeapFileScan.scanNext n s w with
    | none => none
    | some (.ok rid, s1, w1) =>
      match Part1.HeapFileScan.deleteRecord s1 w1 with
      | (.OK, s2, w2) => (Part1.deleteLoop n k s2 w2).map fun r => (r.1, rid :: r.2.1, r.2.2)
      | (e, s2, w2) => some (e, [rid], s2, w2)
    | some (.error e, s1, w1) => some (if e = .FILEEOF then .OK else e, [], s1, w1)

/-- mirrors delete.C:79-107 over part_001's `HeapFileScan`: `QU_Delete` from the
scan's construction on, as `deleteScan` for stage4. The scan's destructor runs
at every return. -/
def Part1.deleteScan (n k : Nat) (w : World) (relation : String) (offset length : Int) (type : Datatype)
    (filter : Option (List UInt8)) (op : Operator) : Option (Status × List RID × World) :=
  let (st, s, w1) := Part1.HeapFileScan.new w relation
  if st ≠ .OK then some (st, [], Part1.HeapFileScan.destructor s w1)
  else
    let (st, s, w2) := Part1.HeapFileScan.startScan s w1 offset length type filter op
    if st ≠ .OK then some (st, [], Part1.HeapFileScan.destructor s w2)
    else (Part1.deleteLoop n k s w2).map fun r => (r.1, r.2.1, Part1.HeapFileScan.destructor r.2.2.1 r.2.2.2)

/-- Where part_001's deleting scan stands after `d` deletions, with the records
`rem` still to delete and fewer than `m` steps of walk left. After FILEEOF it is
still on the last page. -/
def Part1.DelScanning (C : DelCtx) (m d : Nat) (rem : List (RID × Record)) (s : HeapFileScan) (w : World) : Prop :=
  ∃ done p R qs, Part1.DelOn C s w done d p R qs ∧ C.matching p R qs = rem ∧ C.measure R qs < m

theorem Part1.DelScanning.mono {C : DelCtx} {m m' d : Nat} (hm : m ≤ m') {rem s w}
    (h : Part1.DelScanning C m d rem s w) : Part1.DelScanning C m' d rem s w :=
  let ⟨done, p, R, qs, hs, hr, hlt⟩ := h
  ⟨done, p, R, qs, hs, hr, Nat.lt_of_lt_of_le hlt hm⟩

section Loop

variable {C : DelCtx} (hnn : ∀ q ∈ C.ps, 0 ≤ q)
include hnn

/-- From `Part1.DelOn`, the loop of one `scanNext` call stops on the first
record ahead that the predicate accepts, which `deleteRecord` then deletes, or
returns FILEEOF at the end of the last page, within `measure R qs + 1`
iterations. -/
theorem Part1.delLoop_step : ∀ (n : Nat) {s : HeapFileScan} {w : World} {done : List Int} {d : Nat} {p : Int}
    {R : List (Nat × Record)} {qs : List Int}, Part1.DelOn C s w done d p R qs → C.measure R qs < n →
    (C.matching p R qs = [] ∧ ∃ s' w', Part1.HeapFileScan.scanLoop n s w = some (.error .FILEEOF, s', w') ∧
      ∃ done' p', DelAt C s' w' done' d p' [] []) ∨
    ∃ x rest, C.matching p R qs = x :: rest ∧ ∃ s' w', Part1.HeapFileScan.scanLoop n s w = some (.ok x.1, s', w') ∧
      ∃ s'' w'', Part1.HeapFileScan.deleteRecord s' w' = (.OK, s'', w'') ∧
        Part1.DelScanning C (C.measure R qs) (d + 1) rest s'' w''
  | 0, _, _, _, _, _, _, _, _, hn => absurd hn (Nat.not_lt_zero _)
  | n + 1, _, w, done, d, p, e :: R, qs, h, hn => by
    rw [h.loop_consume n, WalkCtx.matching_cons, WalkCtx.measure_cons]
    rw [WalkCtx.measure_cons] at hn
    by_cases hk : C.keep e.2
    · obtain ⟨s'', w'', hdel, h'⟩ := h.consume_delete hk (hnn p h.mem_cur)
      simp only [if_pos hk]
      exact .inr ⟨_, _, rfl, _, _, rfl, s'', w'', hdel, done, p, R, qs, h', rfl, Nat.lt_succ_self _⟩
    · simp only [if_neg hk]
      rcases Part1.delLoop_step n (h.consume_skip (Bool.eq_false_iff.2 hk)) (by omega) with hl | ⟨x, rest, hm, hr⟩
      · exact .inl hl
      · obtain ⟨s', w', hs, s'', w'', hdel, hS⟩ := hr
        exact .inr ⟨x, rest, hm, s', w', hs, s'', w'', hdel, hS.mono (Nat.le_succ _)⟩
  | n + 1, _, _, _, _, _, [], q :: qs, h, hn => by
    obtain ⟨s', w', h', heq⟩ := h.advance n
    rw [heq, WalkCtx.matching_next, WalkCtx.measure_next]
    rw [WalkCtx.measure_next] at hn
    rcases Part1.delLoop_step n h' (by omega) with hl | ⟨x, rest, hm, hr⟩
    · exact .inl hl
    · obtain ⟨s', w', hs, s'', w'', hdel, hS⟩ := hr
      exact .inr ⟨x, rest, hm, s', w', hs, s'', w'', hdel, hS.mono (Nat.le_succ _)⟩
  | n + 1, s, w, done, d, p, [], [], h, _ =>
    .inl ⟨by simp [WalkCtx.matching, WalkCtx.stream], s, w, h.loop_finish n, done, p, h.toDelAt⟩

/-- One `scanNext` call returns the next record the predicate accepts, which
`deleteRecord` then deletes, or FILEEOF once there is none. -/
theorem Part1.delStep {n d : Nat} {rem : List (RID × Record)} {s : HeapFileScan} {w : World}
    (h : Part1.DelScanning C n d rem s w) :
    (rem = [] ∧ ∃ s' w', Part1.HeapFileScan.scanNext n s w = some (.error .FILEEOF, s', w') ∧
      ∃ done p, DelAt C s' w' done d p [] []) ∨
    ∃ x rest, rem = x :: rest ∧ ∃ s' w', Part1.HeapFileScan.scanNext n s w = some (.ok x.1, s', w') ∧
      ∃ s'' w'', Part1.HeapFileScan.deleteRecord s' w' = (.OK, s'', w'') ∧
        Part1.DelScanning C n (d + 1) rest s'' w'' := by
  obtain ⟨done, p, R, qs, h, rfl, hlt⟩ := h
  obtain ⟨j, hc, -⟩ := h.holds.curFrame
  obtain ⟨i, hh, -⟩ := h.holds.hdrFrame
  have hsn : Part1.HeapFileScan.scanNext n s w = Part1.HeapFileScan.scanLoop n s w := by
    simp only [Part1.HeapFileScan.scanNext, hh, hc]
  rw [hsn]
  rcases Part1.delLoop_step hnn n h hlt with hl | ⟨x, rest, hm, s', w', hs, s'', w'', hdel, hS⟩
  · exact .inl hl
  · exact .inr ⟨x, rest, hm, s', w', hs, s'', w'', hdel, hS.mono (Nat.le_of_lt hlt)⟩

/-- With more iterations than records to delete, the loop deletes them all, in
order, and ends on FILEEOF with OK, on the last page. -/
theorem Part1.deleteLoop_deletes {n : Nat} : ∀ (k : Nat) {d : Nat} {rem : List (RID × Record)} {s : HeapFileScan}
    {w : World}, Part1.DelScanning C n d rem s w → rem.length < k →
    ∃ s' w', Part1.deleteLoop n k s w = some (.OK, rem.map Prod.fst, s', w') ∧
      ∃ done p, DelAt C s' w' done (d + rem.length) p [] []
  | 0, _, _, _, _, _, hk => absurd hk (Nat.not_lt_zero _)
  | k + 1, d, _, _, _, h, hk => by
    rcases Part1.delStep hnn h with ⟨rfl, s', w', hs, hx⟩ | ⟨x, rest, rfl, s', w', hs, s'', w'', hdel, hS⟩
    · exact ⟨s', w', by simp only [Part1.deleteLoop, hs, if_true, List.map_nil], hx⟩
    · obtain ⟨s₃, w₃, hl, hx⟩ := Part1.deleteLoop_deletes k hS (by simp only [List.length_cons] at hk; omega)
      refine ⟨s₃, w₃, by simp only [Part1.deleteLoop, hs, hdel, hl, Option.map_some', List.map_cons], ?_⟩
      rw [List.length_cons, ← Nat.add_assoc, Nat.add_right_comm]; exact hx

end Loop

section Ends

variable {C : DelCtx}

/-- mirrors part_001:273-289 and 149-183 at the end of the walk: `endScan`
unpins the last page, dirty if the walk deleted on it, and the base destructor
unpins the header page, as stage4's destructor does past FILEEOF. -/
theorem DelAt.part1_destructor {s : HeapFileScan} {w : World} {done : List Int} {d : Nat} {p : Int}
    (h : DelAt C s w done d p [] []) :
    ∃ (s' : HeapFileScan) (w' : World), DelDone C s' w' d ∧ Part1.HeapFileScan.destructor s w = s'.destructor w' := by
  obtain ⟨w1, hu, hD⟩ := h.unpin_last
  obtain ⟨j, hc, -⟩ := h.holds.curFrame
  obtain ⟨i, hh, -⟩ := h.holds.hdrFrame
  refine ⟨{ s with curPage := none, curPageNo := -1, curDirtyFlag := false, curRec := NULLRID }, w1,
    hD _ rfl rfl rfl rfl rfl rfl, ?_⟩
  simp only [Part1.HeapFileScan.destructor, Part1.HeapFileScan.endScan, hc, h.holds.file, h.curPageNo, hu,
    Part1.HeapFile.destructor, Part1.HeapFile.unpinCur, HeapFileScan.destructor, HeapFileScan.endScan,
    HeapFile.destructor, hh]

/-- part_001's `rewind` (part_001:251-270) from a scan on the chain's first page
`p`, whose pages are as at the start: it unpins `p` and reads it again, and the
scan stands before `p`'s first slot. -/
theorem DelAt.part1_rewind {s : HeapFileScan} {w : World} {d : Nat} {p : Int} {R : List (Nat × Record)}
    {qs : List Int} (h : DelAt C s w [] d p R qs) (hps : C.ps = p :: qs)
    (hpg : ∀ q ∈ p :: qs, (w.image C.f q).toPage = C.pg q) (hfirst : C.H₀.firstPage = p) :
    ∃ s' w', Part1.HeapFileScan.rewind s w = (.OK, s', w') ∧ Part1.DelOn C s' w' [] d p (C.pg p).live qs := by
  obtain ⟨w1, j, w2, hu, hhdr, hr, h'⟩ := h.moveTo (show C.ps = [] ++ p :: qs from hps) nofun hpg
  have hfp : (s.hdr w1).firstPage = p := by rw [hhdr, h.holds.hdr_eq, h.holds.hdrNo, h.db, h.hdr]; exact hfirst
  obtain ⟨i, hi, -⟩ := h.holds.hdrFrame
  obtain ⟨c, hc, -⟩ := h.holds.curFrame
  simp only [HeapFile.hdr, hi, Option.getD_some] at hfp
  refine ⟨_, w2, ?_, h', .inl rfl⟩
  simp only [Part1.HeapFileScan.rewind, hc, h.holds.file, h.curPageNo, hu, Part1.HeapFileScan.readFirstPage, hi,
    HeapFile.hdr, Option.getD_some, hfp, h.chain.of_cons.2.1, if_false, hr, HeapFileScan.atPage]

/-- part_001's constructor and `startScan`, on a file whose data pages are the
chain `p :: qs` and whose header page number is not negative: the constructor
is stage4's, and `startScan` unpins `p` and reads it again. The scan stands
before `p`'s first slot and has deleted nothing. -/
theorem Part1.DelOn.start {name : String} {p : Int} {qs : List Int} (hS : Settled C.f C.us C.w₀)
    (hopen : C.w₀.db.openFile name = .ok C.f) (h0 : 0 ≤ C.w₀.db.first C.f)
    (hh : C.w₀.db.first C.f < C.w₀.db.next C.f) (hps : C.ps = p :: qs) {offset length : Int} {type : Datatype}
    {filter : Option (List UInt8)} (op : Operator)
    (hparm : filter = none ∨ HeapFileScan.ScanParmOk offset length type)
    (hk : HeapFileScan.selects offset length type filter op = C.keep) :
    (Part1.HeapFileScan.new C.w₀ name).1 = .OK ∧ ∃ s w, Part1.HeapFileScan.startScan
      (Part1.HeapFileScan.new C.w₀ name).2.1 (Part1.HeapFileScan.new C.w₀ name).2.2 offset length type filter op =
        (.OK, s, w) ∧ Part1.DelOn C s w [] 0 p (C.pg p).live qs := by
  have hc : Chain C.pg (C.w₀.header C.f).firstPage (p :: qs) := hps ▸ C.chain
  obtain ⟨hp, hne, -, -⟩ := hc.of_cons
  obtain ⟨hok, hH, hcur, -, -, -, himg, hdb, -, -⟩ :=
    HeapFile.new_holds hS C.frames.1 C.frames.2 hopen hh (hp ▸ C.below p (hps ▸ List.mem_cons_self p qs))
  have e : Part1.HeapFileScan.new C.w₀ name = Minirel.HeapFileScan.new C.w₀ name := by
    obtain ⟨j, hj, -⟩ := hH.curFrame
    have e' : Part1.HeapFile.new C.w₀ name = Minirel.HeapFile.new C.w₀ name :=
      Part1.HeapFile.new_eq (by rw [hj]; rfl) (by rw [hH.hdrNo, hdb]; exact h0) (by rw [hcur]; exact hp ▸ hne)
    unfold Part1.HeapFileScan.new Minirel.HeapFileScan.new
    rw [e']
  rw [e]
  refine ⟨hok, ?_⟩
  have himg1 : (Minirel.HeapFileScan.new C.w₀ name).2.2.image C.f = C.w₀.image C.f := himg
  let S : HeapFileScan := (Minirel.HeapFileScan.new C.w₀ name).2.1
  let S1 : HeapFileScan :=
    { (S.startScan offset length type filter op).2 with markedPageNo := -1, markedRec := NULLRID }
  have hts : S1.toHeapFile = S.toHeapFile := S.startScan_toHeapFile offset length type filter op
  have hk1 : S1.matchRec = C.keep := (Minirel.HeapFileScan.startScan_matchRec S (S.startScan_ok op hparm)).trans hk
  obtain ⟨-, h1⟩ := DelAt.start hS hopen hh hps hts hk1
  obtain ⟨s', w', hrw, h2⟩ := h1.part1_rewind hps (fun q _ => by rw [himg1]; rfl) hp
  have e1 : S.startScan offset length type filter op = (.OK, (S.startScan offset length type filter op).2) :=
    Prod.ext (S.startScan_ok op hparm) rfl
  refine ⟨s', w', ?_, h2⟩
  unfold Part1.HeapFileScan.startScan
  rw [e1]
  exact hrw

end Ends

/-- `QU_Delete` over part_001's scan once the constructor and `startScan`
returned OK: the loop, then the scan's destructor. -/
theorem Part1.deleteScan_of_ok {n k : Nat} {w : World} {relation : String} {offset length : Int} {type : Datatype}
    {filter : Option (List UInt8)} {op : Operator} {s : HeapFileScan} {w' : World}
    (h₁ : (Part1.HeapFileScan.new w relation).1 = .OK)
    (h₂ : Part1.HeapFileScan.startScan (Part1.HeapFileScan.new w relation).2.1 (Part1.HeapFileScan.new w relation).2.2
      offset length type filter op = (.OK, s, w')) :
    Part1.deleteScan n k w relation offset length type filter op =
      (Part1.deleteLoop n k s w').map fun r => (r.1, r.2.1, Part1.HeapFileScan.destructor r.2.2.1 r.2.2.2) := by
  unfold Part1.deleteScan
  rcases hn : Part1.HeapFileScan.new w relation with ⟨st, s0, w1⟩
  simp only [hn] at h₁ h₂
  simp only [h₁, h₂, ne_eq, not_true_eq_false, if_false]

/-- `QU_Delete` over part_001's scan, on a file whose data pages `ps` form a
chain from the header's `firstPage`, none of them negative, the header page
allocated, off the chain and not negative, in a settled world with two free
frames where every file read and write succeeds, with no filter or one
`startScan` accepts. It returns OK; `scanNext` returned the RIDs of the
records the predicate of `startScan`'s arguments accepts, each once, in chain
and slot order, and each was deleted; the chain is unchanged and holds exactly
the records the predicate rejects; `recCnt` is down by the number deleted; and
the pool is settled again, with the pins it had before. -/
theorem Part1.deleteScan_removes_matches {w₀ : World} {us : List Nat} {name : String} {f : FileId} {ps : List Int}
    (hS : Settled f us w₀) (hnd : us.Nodup) (h2 : 2 ≤ us.length) (hopen : w₀.db.openFile name = .ok f)
    (hchain : Chain (w₀.dataPage f) (w₀.header f).firstPage ps) (hne : ps ≠ [])
    (hoff : w₀.db.first f ∉ ps) (hbelow : ∀ q ∈ ps, q < w₀.db.next f)
    (hhdr : w₀.db.first f < w₀.db.next f) (h0 : 0 ≤ w₀.db.first f) (hnn : ∀ q ∈ ps, 0 ≤ q)
    (offset length : Int) (type : Datatype) (filter : Option (List UInt8)) (op : Operator)
    (hparm : filter = none ∨ HeapFileScan.ScanParmOk offset length type) :
    let recs : List (RID × Record) := chainRecords (w₀.dataPage f) ps
    let keep : Record → Bool := HeapFileScan.selects offset length type filter op
    ∃ (tr : List RID) (w : World),
      Part1.deleteScan (scanBound (w₀.dataPage f) ps) (recs.length + 1) w₀ name offset length type filter op =
        some (.OK, tr, w) ∧
      tr = (recs.filter fun x => keep x.2).map Prod.fst ∧ tr.Nodup ∧
      Chain (w.dataPage f) (w.header f).firstPage ps ∧
      chainRecords (w.dataPage f) ps = recs.filter (fun x => !keep x.2) ∧
      (w.header f).recCnt = (w₀.header f).recCnt - tr.length ∧ Settled f us w ∧
      pinOf w.pool = pinOf w₀.pool := by
  intro recs keep
  obtain ⟨p, qs, rfl⟩ := List.exists_cons_of_ne_nil hne
  let C : DelCtx := ⟨⟨w₀, f, keep⟩, us, p :: qs, hchain, hoff, hbelow, hnd, h2⟩
  obtain ⟨hok, s, w, hst, h0'⟩ := Part1.DelOn.start (C := C) hS hopen h0 hhdr rfl op hparm rfl
  have hD : Part1.DelScanning C (scanBound C.pg (p :: qs)) 0 (recs.filter fun x => keep x.2) s w :=
    ⟨[], p, _, qs, h0', rfl, Nat.lt_of_lt_of_eq (Nat.lt_succ_self _) (WalkCtx.measure_start p qs)⟩
  obtain ⟨s', w', hl, _, _, hx⟩ :=
    Part1.deleteLoop_deletes hnn (recs.length + 1) hD (Nat.lt_succ_of_le (List.length_filter_le _ _))
  obtain ⟨s'', w'', hx, hdes⟩ := hx.part1_destructor
  obtain ⟨hS', hpin, hdb, himg⟩ := hx.destructor
  have hH : (s''.destructor w'').header f = { w₀.header f with recCnt := (w₀.header f).recCnt -
      ((recs.filter fun x => keep x.2).map Prod.fst).length } := by
    rw [List.length_map, ← Nat.zero_add (List.length _)]
    show ((s''.destructor w'').image f ((s''.destructor w'').db.first f)).toHdr = _
    rw [hdb, himg]; exact hx.hdr
  have hl' : Part1.deleteLoop (scanBound (w₀.dataPage f) (p :: qs)) (recs.length + 1) s w = _ := hl
  refine ⟨_, _, by rw [Part1.deleteScan_of_ok hok hst, hl', Option.map_some', hdes], rfl,
    (chainRecords_nodup _ hchain.nodup).sublist ((List.filter_sublist _).map _), ?_,
    @chainRecords_filter _ _ (fun r => !keep r) _ fun q hq => by
      rw [World.dataPage, ← World.image, himg]; exact hx.pages q hq,
    by rw [hH], hS', hpin⟩
  rw [hH]
  exact hchain.congr fun q hq => by
    rw [World.dataPage, ← World.image, himg]; exact hx.links q hq

/-- `twoRecordWorld`'s file `t`, with one record on each of pages 1 and 2, and
the filter `= (2)` on the first byte: part_001's scan deletes the record of
page 2 and keeps the record of page 1. -/
theorem Part1.deleteScan_removes_matches_filtered :
    let recs : List (RID × Record) := chainRecords (twoRecordWorld.dataPage 0) [1, 2]
    let keep : Record → Bool := HeapFileScan.selects 0 1 .STRING (some [2]) .EQ
    (recs.filter fun x => !keep x.2).map Prod.snd = [⟨[1]⟩] ∧
    ∃ (tr : List RID) (w : World),
      Part1.deleteScan (scanBound (twoRecordWorld.dataPage 0) [1, 2]) (recs.length + 1) twoRecordWorld "t" 0 1
        .STRING (some [2]) .EQ = some (.OK, tr, w) ∧
      tr = (recs.filter fun x => keep x.2).map Prod.fst ∧ tr.Nodup ∧
      Chain (w.dataPage 0) (w.header 0).firstPage [1, 2] ∧
      chainRecords (w.dataPage 0) [1, 2] = recs.filter (fun x => !keep x.2) ∧
      (w.header 0).recCnt = (twoRecordWorld.header 0).recCnt - tr.length ∧ Settled 0 [0, 1] w ∧
      pinOf w.pool = pinOf twoRecordWorld.pool :=
  ⟨by decide, Part1.deleteScan_removes_matches (⟨⟨fun _ => rfl, fun _ => rfl⟩, rfl, ⟨⟨fun _ => false, fun _ => false⟩,
      contentInv_inductive.init _ ⟨⟨3, _, by decide, rfl⟩, rfl⟩, fun _ => rfl⟩, by decide, fun _ _ => rfl⟩ :
      Settled 0 [0, 1] twoRecordWorld) (by decide) (by decide) (rfl : twoRecordWorld.db.openFile "t" = .ok 0)
    (.cons (by decide) rfl (.cons (by decide) rfl .nil))
    (by decide) (by decide) (by decide) (by decide) (by decide) (by decide) 0 1 .STRING (some [2]) .EQ
    (.inr (by decide))⟩

end Minirel
