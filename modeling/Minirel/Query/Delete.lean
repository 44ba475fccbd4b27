import Minirel.Heap.DeleteScan

/-!
# Deleting the records a predicate accepts (`src/stage6/delete.C`)

`QU_Delete` looks the attribute up in the catalog and builds the filter bytes;
then it opens a `HeapFileScan` on the relation, calls `startScan` with the
filter, and calls `deleteRecord` after every `scanNext` that returns OK, until
`scanNext` fails. FILEEOF ends it with OK. The catalog lookup and the filter's
construction are not modelled: `deleteScan` starts from the arguments
`startScan` receives.

**Results.**
* `deleteLoop_deletes`: the loop deletes the records ahead that the predicate
  accepts, one per iteration, and stops on FILEEOF.
* `delete_removes_matches`: on a heap file whose data pages form a chain,
  `QU_Delete`'s scan returns OK; `scanNext` returned each record accepted by
  the predicate of `startScan`'s arguments (`HeapFileScan.selects`) once, in
  chain and slot order; afterwards the chain holds exactly the records it
  rejects, `recCnt` is down by the number deleted, and the pool is settled
  again.
-/
namespace Minirel

open BufMgr

/-- mirrors delete.C:96-106: the `while` loop of `QU_Delete` with at most `k`
iterations, each `scanNext` with at most `n` iterations of its own loop. It
returns what `QU_Delete` returns, the RIDs `scanNext` handed out (the code
discards them), and the scan and world after the loop; `none` if a bound runs
out. -/
def deleteLoop (n : Nat) : Nat → HeapFileScan → World → Option (Status × List RID × HeapFileScan × World)
  | 0, _, _ => none
  | k + 1, s, w =>
    match s.scanNext n w with
    | none => none
    | some (.ok rid, s1, w1) =>
      match s1.deleteRecord w1 with
      | (.OK, s2, w2) => (deleteLoop n k s2 w2).map fun r => (r.1, rid :: r.2.1, r.2.2)
      | (e, s2, w2) => some (e, [rid], s2, w2)
    | some (.error e, s1, w1) => some (if e = .FILEEOF then .OK else e, [], s1, w1)

/-- mirrors delete.C:79-107: `QU_Delete` from the scan's construction on, with
the arguments of `startScan` (`0, 0, STRING, NULL, EQ` when no attribute is
given). The scan's destructor runs at every return. -/
def deleteScan (n k : Nat) (w : World) (relation : String) (offset length : Int) (type : Datatype)
    (filter : Option (List UInt8)) (op : Operator) : Option (Status × List RID × World) :=
  let (st, s, w1) := HeapFileScan.new w relation
  if st ≠ .OK then some (st, [], s.destructor w1)
  else
    let (st, s) := s.startScan offset length type filter op
    if st ≠ .OK then some (st, [], s.destructor w1)
    else (deleteLoop n k s w1).map fun r => (r.1, r.2.1, r.2.2.1.destructor r.2.2.2)

variable {C : DelCtx}

/-- With more iterations than records to delete, the loop deletes them all, in
order, and ends on FILEEOF with OK. -/
theorem deleteLoop_deletes {n : Nat} : ∀ (k : Nat) {d : Nat} {rem : List (RID × Record)} {s : HeapFileScan}
    {w : World}, DelScanning C n d rem s w → rem.length < k →
    ∃ s' w', deleteLoop n k s w = some (.OK, rem.map Prod.fst, s', w') ∧ DelDone C s' w' (d + rem.length)
  | 0, _, _, _, _, _, hk => absurd hk (Nat.not_lt_zero _)
  | k + 1, d, _, _, _, h, hk => by
    rcases delStep h with ⟨rfl, s', w', hs, hx⟩ | ⟨x, rest, rfl, s', w', hs, s'', w'', hdel, hS⟩
    · exact ⟨s', w', by simp only [deleteLoop, hs, if_true, List.map_nil], hx⟩
    · obtain ⟨s₃, w₃, hl, hx⟩ := deleteLoop_deletes k hS (by simp only [List.length_cons] at hk; omega)
      refine ⟨s₃, w₃, by simp only [deleteLoop, hs, hdel, hl, Option.map_some', List.map_cons], ?_⟩
      rw [List.length_cons, ← Nat.add_assoc, Nat.add_right_comm]; exact hx

/-- The scan's destructor after FILEEOF unpins the header page, dirty if the scan
deleted anything: the pool is settled again, with the pins of the start, and
every page keeps its bytes. -/
theorem DelDone.destructor {s : HeapFileScan} {w : World} {d : Nat} (h : DelDone C s w d) :
    Settled C.f C.us (s.destructor w) ∧ pinOf (s.destructor w).pool = pinOf C.w₀.pool ∧
      (s.destructor w).db = C.w₀.db ∧ (s.destructor w).image C.f = w.image C.f := by
  obtain ⟨w', hu, hdb, hl, -, hW⟩ := h.writing.unPinPage (q := s.headerPageNo) (by simp [onePin])
    s.hdrDirtyFlag fun hd => by simp [hd]
  have he : s.destructor w = w' := by
    simp only [HeapFileScan.destructor, HeapFileScan.endScan, h.curPage, HeapFile.destructor, h.file, hu]
  rw [he]
  obtain ⟨hS, hpin⟩ := (hW.congr (fun k => by omega) fun q => by
    by_cases hq : q = s.headerPageNo <;> cases hd : s.hdrDirtyFlag <;> simp [hd, hq, Function.update_apply]).settled
  exact ⟨hS, hpin, hdb.trans h.db, funext hl⟩

/-- The constructor and `startScan`, on a file whose data pages are the chain
`p :: qs`: the scan stands before `p`'s first slot and has deleted nothing. -/
theorem DelAt.start {name : String} {p : Int} {qs : List Int} (hS : Settled C.f C.us C.w₀)
    (hopen : C.w₀.db.openFile name = .ok C.f) (hh : C.w₀.db.first C.f < C.w₀.db.next C.f)
    (hps : C.ps = p :: qs) {S : HeapFileScan} (hts : S.toHeapFile = (HeapFileScan.new C.w₀ name).2.1.toHeapFile)
    (hk : S.matchRec = C.keep) :
    (HeapFileScan.new C.w₀ name).1 = .OK ∧
      DelAt C S (HeapFileScan.new C.w₀ name).2.2 [] 0 p (C.pg p).live qs := by
  have hc : Chain C.pg (C.w₀.header C.f).firstPage (p :: qs) := hps ▸ C.chain
  have hp : (C.w₀.header C.f).firstPage = p := hc.of_cons.1
  obtain ⟨hok, hH, hcur, hhd, hcd, hrec, himg, hdb, hW, -⟩ :=
    HeapFile.new_holds hS C.frames.1 C.frames.2 hopen hh (hp ▸ C.below p (hps ▸ List.mem_cons_self p qs))
  have hts : S.toHeapFile = (HeapFile.new C.w₀ name).2.1 := hts
  have himg : (HeapFileScan.new C.w₀ name).2.2.image C.f = C.w₀.image C.f := himg
  have hpos : S.slotPos = 0 := by simp [HeapFileScan.slotPos, hts, hrec]
  have hall : ∀ e ∈ (C.pg p).live, (0 : Int) < e.1 := fun e he =>
    of_decide_eq_true (List.filter_eq_self.1 (DataPage.live_filter_pos _) e he)
  refine ⟨hok, ⟨hW.congr (fun _ => by rw [hts]) fun q => by simp [HeapFile.wrote, hts, hhd, hcd], hts ▸ hH, hdb,
    hts ▸ hcur.trans hp, hk, hps, hpos ▸ DataPage.live_filter_pos _, fun q _ => by rw [himg]; exact ⟨rfl, rfl⟩,
    fun _ hq => absurd hq (List.not_mem_nil _), ?_, fun q _ => by rw [himg]; rfl, ?_⟩⟩
  · rw [himg, hpos]; exact (List.filter_eq_self.2 fun e he => by simp [hall e he]).symm
  · rw [himg, show ((0 : Nat) : Int) = 0 from rfl, Int.sub_zero]; rfl

/-- `QU_Delete` once the constructor and `startScan` returned OK: the loop, then
the scan's destructor. -/
theorem deleteScan_of_ok {n k : Nat} {w : World} {relation : String} {offset length : Int} {type : Datatype}
    {filter : Option (List UInt8)} {op : Operator} (h₁ : (HeapFileScan.new w relation).1 = .OK)
    (h₂ : ((HeapFileScan.new w relation).2.1.startScan offset length type filter op).1 = .OK) :
    deleteScan n k w relation offset length type filter op =
      (deleteLoop n k ((HeapFileScan.new w relation).2.1.startScan offset length type filter op).2
        (HeapFileScan.new w relation).2.2).map fun r => (r.1, r.2.1, r.2.2.1.destructor r.2.2.2) := by
  unfold deleteScan
  rcases hn : HeapFileScan.new w relation with ⟨st, s, w1⟩
  rcases hs : s.startScan offset length type filter op with ⟨st', s'⟩
  simp only [hn, hs] at h₁ h₂
  simp only [hs, h₁, h₂, ne_eq, not_true_eq_false, if_false]

/-- Pages that each keep the records the predicate rejects keep them in chain order. -/
theorem chainRecords_filter {pg pg' : Int → DataPage} {keep : Record → Bool} :
    ∀ {ps : List Int}, (∀ q ∈ ps, (pg' q).live = (pg q).live.filter fun e => keep e.2) →
      chainRecords pg' ps = (chainRecords pg ps).filter fun x => keep x.2
  | [], _ => rfl
  | q :: qs, h => by
    rw [chainRecords_cons, chainRecords_cons, List.filter_append, h q (List.mem_cons_self _ _),
      chainRecords_filter fun r hr => h r (List.mem_cons_of_mem _ hr), List.filter_map]
    rfl

/-- `QU_Delete`'s scan on a file whose data pages `ps` form a chain from the
header's `firstPage`, the header page allocated and off the chain, in a settled
world with two free frames where every file read and write succeeds, with no
filter or one `startScan` accepts. It returns OK; `scanNext` returned the RIDs
of the records the predicate of `startScan`'s arguments accepts, each once, in
chain and slot order, and each was deleted; the chain is unchanged and holds
exactly the records the predicate rejects; `recCnt` is down by the number
deleted; and the pool is settled again, with the pins it had before. -/
theorem delete_removes_matches {w₀ : World} {us : List Nat} {name : String} {f : FileId} {ps : List Int}
    (hS : Settled f us w₀) (hnd : us.Nodup) (h2 : 2 ≤ us.length) (hopen : w₀.db.openFile name = .ok f)
    (hchain : Chain (w₀.dataPage f) (w₀.header f).firstPage ps) (hne : ps ≠ [])
    (hoff : w₀.db.first f ∉ ps) (hbelow : ∀ q ∈ ps, q < w₀.db.next f)
    (hhdr : w₀.db.first f < w₀.db.next f)
    (offset length : Int) (type : Datatype) (filter : Option (List UInt8)) (op : Operator)
    (hparm : filter = none ∨ HeapFileScan.ScanParmOk offset length type) :
    let recs : List (RID × Record) := chainRecords (w₀.dataPage f) ps
    let keep : Record → Bool := HeapFileScan.selects offset length type filter op
    ∃ (tr : List RID) (w : World),
      deleteScan (scanBound (w₀.dataPage f) ps) (recs.length + 1) w₀ name offset length type filter op =
        some (.OK, tr, w) ∧
      tr = (recs.filter fun x => keep x.2).map Prod.fst ∧ tr.Nodup ∧
      Chain (w.dataPage f) (w.header f).firstPage ps ∧
      chainRecords (w.dataPage f) ps = recs.filter (fun x => !keep x.2) ∧
      (w.header f).recCnt = (w₀.header f).recCnt - tr.length ∧ Settled f us w ∧
      pinOf w.pool = pinOf w₀.pool := by
  intro recs keep
  obtain ⟨p, qs, rfl⟩ := List.exists_cons_of_ne_nil hne
  let C : DelCtx := ⟨⟨w₀, f, keep⟩, us, p :: qs, hchain, hoff, hbelow, hnd, h2⟩
  have hst := HeapFileScan.startScan_ok (HeapFileScan.new w₀ name).2.1 op hparm
  have hts := HeapFileScan.startScan_toHeapFile (HeapFileScan.new w₀ name).2.1 offset length type filter op
  obtain ⟨hok, h0⟩ := DelAt.start (C := C) hS hopen hhdr rfl hts (HeapFileScan.startScan_matchRec _ hst)
  have hD : DelScanning C (scanBound C.pg (p :: qs)) 0 (recs.filter fun x => keep x.2)
      ((HeapFileScan.new w₀ name).2.1.startScan offset length type filter op).2 (HeapFileScan.new w₀ name).2.2 :=
    .inr ⟨[], p, _, qs, h0, rfl, Nat.lt_of_lt_of_eq (Nat.lt_succ_self _) (WalkCtx.measure_start p qs)⟩
  obtain ⟨s', w', hl, hx⟩ := deleteLoop_deletes (recs.length + 1) hD (Nat.lt_succ_of_le (List.length_filter_le _ _))
  obtain ⟨hS', hpin, hdb, himg⟩ := hx.destructor
  have hH : (s'.destructor w').header f = { w₀.header f with recCnt := (w₀.header f).recCnt -
      ((recs.filter fun x => keep x.2).map Prod.fst).length } := by
    rw [List.length_map, ← Nat.zero_add (List.length _)]
    show ((s'.destructor w').image f ((s'.destructor w').db.first f)).toHdr = _
    rw [hdb, himg]; exact hx.hdr
  refine ⟨_, _, by rw [deleteScan_of_ok hok hst]; exact congrArg _ hl, rfl,
    (chainRecords_nodup _ hchain.nodup).sublist ((List.filter_sublist _).map _), ?_,
    @chainRecords_filter _ _ (fun r => !keep r) _ fun q hq => by
      rw [World.dataPage, ← World.image, himg]; exact hx.pages q hq,
    by rw [hH], hS', hpin⟩
  rw [hH]
  exact hchain.congr fun q hq => by
    rw [World.dataPage, ← World.image, himg]; exact hx.links q hq

/-- `twoRecordWorld`'s file `t`, with one record on each of pages 1 and 2, and
the filter `= (2)` on the first byte: the record of page 2 is deleted and the
record of page 1 stays. -/
theorem delete_removes_matches_filtered :
    let recs : List (RID × Record) := chainRecords (twoRecordWorld.dataPage 0) [1, 2]
    let keep : Record → Bool := HeapFileScan.selects 0 1 .STRING (some [2]) .EQ
    (recs.filter fun x => !keep x.2).map Prod.snd = [⟨[1]⟩] ∧
    ∃ (tr : List RID) (w : World),
      deleteScan (scanBound (twoRecordWorld.dataPage 0) [1, 2]) (recs.length + 1) twoRecordWorld "t" 0 1 .STRING
        (some [2]) .EQ = some (.OK, tr, w) ∧
      tr = (recs.filter fun x => keep x.2).map Prod.fst ∧ tr.Nodup ∧
      Chain (w.dataPage 0) (w.header 0).firstPage [1, 2] ∧
      chainRecords (w.dataPage 0) [1, 2] = recs.filter (fun x => !keep x.2) ∧
      (w.header 0).recCnt = (twoRecordWorld.header 0).recCnt - tr.length ∧ Settled 0 [0, 1] w ∧
      pinOf w.pool = pinOf twoRecordWorld.pool :=
  ⟨by decide, delete_removes_matches (⟨⟨fun _ => rfl, fun _ => rfl⟩, rfl, ⟨⟨fun _ => false, fun _ => false⟩,
      contentInv_inductive.init _ ⟨⟨3, _, by decide, rfl⟩, rfl⟩, fun _ => rfl⟩, by decide, fun _ _ => rfl⟩ :
      Settled 0 [0, 1] twoRecordWorld) (by decide) (by decide) (rfl : twoRecordWorld.db.openFile "t" = .ok 0)
    (.cons (by decide) rfl (.cons (by decide) rfl .nil))
    (by decide) (by decide) (by decide) (by decide) 0 1 .STRING (some [2]) .EQ (.inr (by decide))⟩

end Minirel
