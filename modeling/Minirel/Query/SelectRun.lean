import Minirel.Heap.Shared
import Minirel.Heap.ScanEnd
import Minirel.Query.Select

/-!
# `ScanSelect` into another relation appends the projected matches

With the result relation `fout` other than the input relation `fin`, the scan
and the inserter share the pool as `Minirel.Heap.Shared` says, and each
iteration of `ScanSelect`'s loop takes the next matching record of the input
file, as it was at the start, and appends its projection to the result file.

* `projectInto_eq`: with the projected attributes inside the record and their
  lengths adding up within `int`, the copy loop writes their bytes one after
  another (`projection`).
* `SelAt`: where the loop stands between two calls. `SelAt.start`: the
  constructors and `startScan` leave it there. `SelAt.scanNext` and
  `SelAt.insertRecord`: the two calls of one iteration.
* `selectLoop_appends`: from `SelAt`, a loop that returns OK has appended one
  record per matching record still to come, and the scan is past FILEEOF.
  `SelAt.destructors`: the destructors then leave the result file as it is.

**Results.**
* `scanSelect_appends`: from a start where the input file's data pages form a
  chain, the result file is well formed, five frames are unpinned and every
  file call succeeds, a `ScanSelect` that returns OK has appended to the result
  file the projection of each record of the input file that `selectPred`
  accepts, in scan order, each `reclen` bytes long. With the input relation as
  the result relation it does not (`scanSelect_into_input`), nor with an input
  file whose `firstPage` is -1 (`scanSelect_reads_page_minus_one`).
-/
namespace Minirel

open BufMgr

/-- The record `ScanSelect` builds from input record `r`: the bytes
`[attrOffset, attrOffset + attrLen)` of each projected attribute, in projection
order. -/
def projection (projNames : List AttrDesc) (r : Record) : Record := ⟨(projNames.map (attrBytes r.data)).flatten⟩

/-- The attributes `projNames` lie inside `data`. -/
def Inside (projNames : List AttrDesc) (data : List UInt8) : Prop :=
  ∀ a ∈ projNames, 0 ≤ a.attrOffset ∧ 0 ≤ a.attrLen ∧ a.attrOffset + a.attrLen ≤ data.length

instance (projNames : List AttrDesc) (data : List UInt8) : Decidable (Inside projNames data) :=
  inferInstanceAs (Decidable (∀ a ∈ projNames, _))

theorem attrBytes_length {data : List UInt8} {a : AttrDesc}
    (h : 0 ≤ a.attrOffset ∧ 0 ≤ a.attrLen ∧ a.attrOffset + a.attrLen ≤ data.length) :
    (attrBytes data a).length = a.attrLen.toNat := by
  simp only [attrBytes, List.length_take, List.length_drop]; omega

theorem sum_attrLen_nonneg {data : List UInt8} {projNames : List AttrDesc} (h : Inside projNames data) :
    0 ≤ (projNames.map AttrDesc.attrLen).sum :=
  List.sum_nonneg fun x hx => by
    obtain ⟨a, ha, rfl⟩ := List.mem_map.1 hx
    exact (h a ha).2.1

theorem projection_length {projNames : List AttrDesc} {r : Record} (h : Inside projNames r.data) :
    ((projection projNames r).length : Int) = (projNames.map AttrDesc.attrLen).sum := by
  induction projNames with
  | nil => rfl
  | cons a projNames ih =>
    have ha := h a (List.mem_cons_self _ _)
    have hrest := ih fun b hb => h b (List.mem_cons_of_mem _ hb)
    simp only [projection, Record.length, List.map_cons, List.flatten_cons, List.length_append, List.sum_cons,
      Nat.cast_add, attrBytes_length ha] at hrest ⊢
    rw [hrest]; omega

theorem take_memcpyAt {buf src : List UInt8} {off : Nat} (h : off ≤ buf.length) :
    (memcpyAt buf off src).take (off + src.length) = buf.take off ++ src :=
  List.take_left' (by simp only [List.length_append, List.length_take]; omega)

/-- The copy loop of `ScanSelect` (select.C:149-153), from `offset` on, over a
buffer that ends where the projected attributes end: it keeps the buffer's
bytes before `offset` and writes the attributes' bytes one after another. -/
theorem projectInto_eq (data : List UInt8) :
    ∀ (projNames : List AttrDesc) (offset : Int) (outData : List UInt8), Inside projNames data → 0 ≤ offset →
      offset + (projNames.map AttrDesc.attrLen).sum < 2 ^ 31 →
      (outData.length : Int) = offset + (projNames.map AttrDesc.attrLen).sum →
      projectInto data projNames offset outData = outData.take offset.toNat ++ (projNames.map (attrBytes data)).flatten
  | [], offset, outData, _, _, _, hl => by
    simp only [List.map_nil, List.sum_nil, Int.add_zero] at hl
    rw [projectInto, List.take_of_length_le (by omega)]; simp
  | a :: projNames, offset, outData, ha, h0, hlt, hl => by
    have ha₀ := ha a (List.mem_cons_self _ _)
    have hin : Inside projNames data := fun b hb => ha b (List.mem_cons_of_mem _ hb)
    have hrest := sum_attrLen_nonneg hin
    have hlen := attrBytes_length ha₀
    simp only [List.map_cons, List.sum_cons] at hlt hl
    have hfit : cInt (offset + a.attrLen) = offset + a.attrLen := cInt_of_fits (by omega) (by omega)
    have hcopy : (memcpyAt outData offset.toNat (attrBytes data a)).length = outData.length :=
      memcpyAt_length (by omega)
    rw [projectInto, hfit, projectInto_eq data projNames _ _ hin (by omega) (by omega) (by rw [hcopy]; omega),
      show (offset + a.attrLen).toNat = offset.toNat + (attrBytes data a).length by rw [hlen]; omega,
      take_memcpyAt (by omega)]
    simp only [List.map_cons, List.flatten_cons, List.append_assoc]

/-! ## The loop -/

/-- Where `ScanSelect`'s loop stands between two calls: the scan `s` of `fin`, in
some session over the file's pages at the start `W₀`, with the matching records
`rem` still to hand out and its header page as the constructor left it; the
inserter `t` at the last page of `fout`, which holds the data pages `ps` and
the records `recs`; both in a world `w` that `Shared` describes. -/
structure SelAt (W₀ : World) (fin fout : FileId) (us : List Nat) (keep : Record → Bool) (m : Nat)
    (rem : List (RID × Record)) (s : HeapFileScan) (t : InsertFileScan) (w : World) (ps : List Int)
    (recs : List (RID × Record)) : Prop where
  scan : ∃ C : ScanCtx, C.f = fin ∧ C.pg = W₀.dataPage fin ∧ C.keep = keep ∧
    C.hdrKey = (some fin, W₀.db.first fin) ∧ Scanning C m rem s w
  hdrNo : s.headerPageNo = W₀.db.first fin
  hdrClean : s.hdrDirtyFlag = false
  shared : Shared W₀ fin fout us (scanHeld (some fin, W₀.db.first fin) fin s) (t.held fout) t.wrote w
  holds : t.Holds fout w
  layout : Layout w fout ps recs
  last : ps.getLast? = some t.curPageNo

/-- The predicate `scanStart` gives a scan the constructor opened does not
depend on the world or the file the scan was opened on. -/
theorem matchRec_scanStart_new (w w' : World) (name name' : String) (attrDesc : Option AttrDesc) (op : Operator)
    (filter : Option (List UInt8)) :
    (scanStart (HeapFileScan.new w name).2.1 attrDesc op filter).2.matchRec =
      (scanStart (HeapFileScan.new w' name').2.1 attrDesc op filter).2.matchRec := by
  funext r
  cases attrDesc <;> cases filter <;> simp only [scanStart, HeapFileScan.startScan] <;> (try split) <;> rfl

section Loop

variable {W₀ : World} {fin fout : FileId} {us : List Nat} {keep : Record → Bool} {m : Nat}
  (hne : fin ≠ fout) (hnd : us.Nodup) (h5 : 5 ≤ us.length)
include hne hnd h5

/-- A `scanNext` call that returns answers the next matching record, which
`getRecord` then returns, and leaves the loop's state after it. -/
theorem SelAt.scanNext {rem : List (RID × Record)} {s : HeapFileScan} {t : InsertFileScan} {w : World}
    {ps : List Int} {recs : List (RID × Record)} (h : SelAt W₀ fin fout us keep m rem s t w ps recs) {n : Nat}
    {r : Except Status RID × HeapFileScan × World} (hr : s.scanNext n w = some r) :
    r.1 = answer rem ∧ (∀ x ∈ rem.head?, r.2.1.getRecord r.2.2 = .ok x.2) ∧
      SelAt W₀ fin fout us keep m rem.tail r.2.1 t r.2.2 ps recs := by
  obtain ⟨C, hf, hpg, hk, hh, hsc⟩ := h.scan
  obtain ⟨C', hC', hsc'⟩ := h.shared.rescan hnd (fun k hk => t.mem_of_held_pos fout hk)
    (by simp only [List.length_cons, List.length_nil]; omega) hf hpg hh hsc fun _ _ hf _ => hf
  obtain ⟨h1, h2, h3⟩ := hsc'.scanNext_some hr
  have hR := h2.reading
  rw [hC'.origin, hC'.hdr, hC'.file] at hR
  obtain ⟨hcalls, hhdrNo, hhdrClean⟩ := scanNext_calls (hC'.file ▸ hsc'.file) hr
  obtain ⟨hS', hdb, hlog, hkeep⟩ := h.shared.of_reading hne hC'.ghost hR (fun _ hk => scanHeld_file hk) hcalls
  exact ⟨h1, h3, ⟨C', hC'.file, hC'.pg, hC'.keep.trans hk, hC'.hdr, h2⟩, hhdrNo.trans h.hdrNo,
    hhdrClean.trans h.hdrClean, hS', h.holds.keep hkeep (t.held_hdr fout) (t.held_cur fout) (by rw [hdb]),
    h.layout.congr (funext hlog) hdb, h.last⟩

/-- An `insertRecord` of a record that fits on a page succeeds and appends the
record to the result file, under a RID no record has. -/
theorem SelAt.insertRecord {rem : List (RID × Record)} {s : HeapFileScan} {t : InsertFileScan} {w : World}
    {ps : List Int} {recs : List (RID × Record)} (h : SelAt W₀ fin fout us keep m rem s t w ps recs) {G : Geom}
    {rec : Record} (hlen : rec.length ≤ G.cap) :
    ∃ rid t' w' ps', t.insertRecord G w rec = (.ok rid, t', w') ∧ rid ∉ recs.map Prod.fst ∧
      SelAt W₀ fin fout us keep m rem s t' w' ps' (recs ++ [(rid, rec)]) := by
  obtain ⟨us', hnd', hlen', hW⟩ := h.shared.writing hnd fun _ hk => scanHeld_mem hk
  obtain ⟨rid, t', w', ps', he, hrid, hI', hcalls⟩ := InsAt.insertRecord ⟨hW, h.holds, h.layout, h.last⟩ hnd'
    (by simp only [List.length_cons, List.length_nil] at hlen'; omega) hlen
  obtain ⟨hS', hkeep⟩ := h.shared.of_writing hne hI'.writing (fun _ hk => HeapFile.held_file hk) hcalls
  obtain ⟨C, hf, hpg, hk, hh, hsc⟩ := h.scan
  obtain ⟨C', hC', hsc'⟩ := hS'.rescan hnd (fun k hk => t'.mem_of_held_pos fout hk)
    (by simp only [List.length_cons, List.length_nil]; omega) hf hpg hh hsc hkeep
  exact ⟨rid, t', w', ps', he, hrid, ⟨C', hC'.file, hC'.pg, hC'.keep.trans hk, hC'.hdr, hsc'⟩, h.hdrNo,
    h.hdrClean, hS', hI'.holds, hI'.layout, hI'.last⟩

omit hne hnd h5 in
theorem InsertFileScan.insertRecord_too_long {G : Geom} {t : InsertFileScan} {w : World} {rec : Record}
    (h : G.cap < rec.length) : t.insertRecord G w rec = (.error .INVALIDRECLEN, t, w) := by
  simp [InsertFileScan.insertRecord, h]

/-- `ScanSelect`'s loop, from `SelAt` with the matching records `rem` still to
come, each with the projected attributes inside it and their lengths adding up
within `int`: when it returns OK, it has appended to the result file the
projection of each record of `rem`, in order, under fresh RIDs, and the scan is
past FILEEOF. -/
theorem selectLoop_appends (G : Geom) (n : Nat) (projNames : List AttrDesc)
    (hsum : (projNames.map AttrDesc.attrLen).sum < 2 ^ 31) :
    ∀ (k : Nat) {rem : List (RID × Record)} {s : HeapFileScan} {t : InsertFileScan} {outData : List UInt8}
      {w : World} {ps : List Int} {recs : List (RID × Record)} {r : Status × HeapFileScan × InsertFileScan × World},
      SelAt W₀ fin fout us keep m rem s t w ps recs → (∀ x ∈ rem, Inside projNames x.2.data) →
      (outData.length : Int) = (projNames.map AttrDesc.attrLen).sum →
      selectLoop G n projNames k s t outData w = some r → r.1 = .OK →
      ∃ (rids : List RID) (ps' : List Int), rids.length = rem.length ∧ r.2.1.curPage = none ∧
        SelAt W₀ fin fout us keep m [] r.2.1 r.2.2.1 r.2.2.2 ps'
          (recs ++ rids.zip (rem.map fun x => projection projNames x.2))
  | 0, _, _, _, _, _, _, _, _, _, _, _, hr, _ => by cases hr
  | k + 1, rem, s, t, outData, w, ps, recs, r, h, hin, hout, hr, hok => by
    rcases hs : s.scanNext n w with _ | ⟨a, s1, w1⟩
    · simp only [selectLoop, hs] at hr; cases hr
    obtain ⟨h1, hg, h'⟩ := h.scanNext hne hnd h5 hs
    simp only at h1 hg h'
    cases rem with
    | nil =>
      subst h1
      simp only [selectLoop, hs, answer, ne_eq, not_true_eq_false, if_false, Option.some.injEq] at hr
      subst hr
      exact ⟨[], ps, rfl, (scanNext_fileeof hs).1, by simpa using h'⟩
    | cons x rem =>
      subst h1
      have hx : Inside projNames x.2.data := hin x (List.mem_cons_self _ _)
      have hproj : projectInto x.2.data projNames 0 outData = (projection projNames x.2).data := by
        rw [projectInto_eq x.2.data projNames 0 outData hx (Int.le_refl 0) (by omega) (by omega)]; rfl
      simp only [selectLoop, hs, answer, hg x rfl, hproj] at hr
      by_cases hlen : (projection projNames x.2).length ≤ G.cap
      · obtain ⟨rid, t', w', ps', he, -, h''⟩ := h'.insertRecord hne hnd h5 hlen
        rw [he] at hr
        obtain ⟨rids, ps'', hl, hcur, hend⟩ := selectLoop_appends G n projNames hsum k h''
          (fun y hy => hin y (List.mem_cons_of_mem _ hy)) (projection_length hx) hr hok
        refine ⟨rid :: rids, ps'', by simp [hl], hcur, ?_⟩
        simpa only [List.map_cons, List.zip_cons_cons, List.append_assoc, List.singleton_append] using hend
      · rw [InsertFileScan.insertRecord_too_long (Nat.lt_of_not_le hlen)] at hr
        cases hr; cases hok

/-- Past FILEEOF, the two destructors, the scan's first, unpin the scan's header
page clean and write back and unpin the inserter's pages: the result file is
the one the loop left. -/
theorem SelAt.destructors {s : HeapFileScan} {t : InsertFileScan} {w : World} {ps : List Int}
    {recs : List (RID × Record)} (h : SelAt W₀ fin fout us keep m [] s t w ps recs) (hcur : s.curPage = none) :
    Layout (t.destructor (s.destructor w)) fout ps recs := by
  obtain ⟨C, hf, hpg, hk, hh, hsc⟩ := h.scan
  obtain ⟨C', hC', hsc'⟩ := h.shared.rescan hnd (fun k hk => t.mem_of_held_pos fout hk)
    (by simp only [List.length_cons, List.length_nil]; omega) hf hpg hh hsc fun _ _ hf _ => hf
  have hR := hsc'.reading
  rw [hC'.origin, hC'.hdr, hC'.file] at hR
  obtain ⟨w1, hu, hR1⟩ := hR.unPinPage (f := fin) (p := W₀.db.first fin) (by simp [scanHeld, onePin])
  have hsd : s.destructor w = w1 := by
    have hfile : s.filePtr = some fin := hC'.file ▸ hsc'.file
    simp only [HeapFileScan.destructor, HeapFileScan.endScan, hcur, HeapFile.destructor, hfile, h.hdrNo,
      h.hdrClean, hu]
  have hzero : ∀ k, ¬0 < scanHeld (some fin, W₀.db.first fin) fin s k - onePin (some fin, W₀.db.first fin) k :=
    fun k => by simp [scanHeld, hcur]
  obtain ⟨hS1, hdb, hlog, hkeep⟩ := h.shared.of_reading hne hC'.ghost hR1 (fun k hk => absurd hk (hzero k))
    (FileCalls.unPinPage hu)
  obtain ⟨us', -, -, hW⟩ := hS1.writing hnd (fun k hk => absurd hk (hzero k) : ∀ k, _ → k ∈ ([] : List Key))
  rw [hsd]
  exact (InsAt.destructor ⟨hW, h.holds.keep hkeep (t.held_hdr fout) (t.held_cur fout) (by rw [hdb]),
    h.layout.congr (funext hlog) hdb, h.last⟩).2.2.2

/-- The constructors, the inserter's first, and `startScan`, whatever its status:
both constructors return OK, and the loop starts from `SelAt` with every record
of the input file's chain that the predicate accepts still to come. -/
theorem SelAt.start {g : Ghost} {result name : String} {p : Int} {qs ps : List Int} {recs : List (RID × Record)}
    (hrw : W₀.io.ReadWriteOk) (halloc : (W₀.io.allocatePage fout).1 = .OK) (hc : ContentInv (W₀.pool, g))
    (hin : ∀ q, g.owed (some fin, q) = false ∧ g.fresh (some fin, q) = false)
    (hout : ∀ q, g.fresh (some fout, q) = false)
    (hus : ∀ u ∈ us, u < W₀.pool.numBufs ∧ (W₀.pool.bufTable u).pinCnt = 0)
    (hunalloc : ∀ q, W₀.db.next fout ≤ q → W₀.pool.hashTable.find (some fout, q) = none)
    (hres : W₀.db.openFile result = .ok fout) (hinp : W₀.db.openFile name = .ok fin)
    (hchain : Chain (W₀.dataPage fin) (W₀.header fin).firstPage (p :: qs)) (hL : Layout W₀ fout ps recs)
    (attrDesc : Option AttrDesc) (op : Operator) (filter : Option (List UInt8)) :
    let keep : Record → Bool := fun r => (scanStart (HeapFileScan.new W₀ name).2.1 attrDesc op filter).2.matchRec r
    ∃ t w1 s0 w2, InsertFileScan.new W₀ result = (.OK, t, w1) ∧ HeapFileScan.new w1 name = (.OK, s0, w2) ∧
      SelAt W₀ fin fout us keep (scanBound (W₀.dataPage fin) (p :: qs))
        ((chainRecords (W₀.dataPage fin) (p :: qs)).filter fun x => keep x.2) (scanStart s0 attrDesc op filter).2
        t w2 ps recs := by
  intro keep
  -- the inserter's constructor, then the session it leaves
  obtain ⟨t, w1, hnew, hI, hc1⟩ :=
    InsertFileScan.new_insAt ⟨hrw, halloc, ⟨g, hc, hout⟩, hus, hunalloc⟩ hnd (by omega) hres hL
  obtain ⟨hS₁, -⟩ := (Shared.init hrw halloc hc hin hout hus hunalloc).of_writing hne
    (by rw [World.relieve_zero _ (fun _ => rfl) fun _ => by simp [wroteKey]]; exact hI.writing)
    (fun _ hk => HeapFile.held_file hk) hc1
  -- the scan's constructor, in a session begun at `w1`
  obtain ⟨g1, hcg1, hg1⟩ := hS₁.ghost
  obtain ⟨u₁, u₂, hne12, hR1⟩ := hS₁.reading hnd (fun k hk => t.mem_of_held_pos fout hk)
    (by simp only [List.length_cons, List.length_nil]; omega) hcg1 hg1
  rw [World.relieve_zero _ (fun _ => rfl) fun _ => rfl] at hR1
  let C₀ : ScanCtx := ⟨⟨w1, fin, fun _ => true⟩, g1, u₁, u₂, fun q => (hg1.input q).2, hne12⟩
  have hpg : C₀.pg = W₀.dataPage fin := funext fun q => congrArg Img.toPage (hS₁.input q)
  have hopen : w1.db.openFile name = .ok fin := by simpa only [Db.openFile, hS₁.files] using hinp
  have hhdr : w1.header fin = W₀.header fin := by simp only [World.header, hS₁.first, hS₁.input]
  obtain ⟨hok, h0⟩ := ScanAt.new_scanAt (C := C₀) hR1 hopen rfl (by rw [hpg, hhdr]; exact hchain)
  obtain ⟨hno, hcl⟩ := HeapFileScan.new_hdr hopen
  have hcalls : FileCalls fin w1 (HeapFileScan.new w1 name).2.2 := HeapFile.new_calls hopen
  have hkeep := matchRec_scanStart_new w1 W₀ name name attrDesc op filter
  rcases hsn : HeapFileScan.new w1 name with ⟨st, s0, w2⟩
  simp only [hsn] at hok h0 hno hcl hcalls hkeep
  subst hok
  -- `startScan` changes the predicate only
  have hs : (scanStart s0 attrDesc op filter).2.toHeapFile = s0.toHeapFile := by
    cases attrDesc <;> exact HeapFileScan.startScan_toHeapFile _ _ _ _ _ _
  refine ⟨t, w1, s0, w2, hnew, hsn, ?_⟩
  generalize (scanStart s0 attrDesc op filter).2 = s at hs hkeep ⊢
  have hsc : Scanning { C₀ with keep := s.matchRec } (scanBound (W₀.dataPage fin) (p :: qs))
      ((chainRecords (W₀.dataPage fin) (p :: qs)).filter fun x => keep x.2) s w2 := by
    refine .inr ⟨p, _, qs, h0.withFilter hs, ?_, ?_⟩
    · show (chainRecords C₀.pg (p :: qs)).filter (fun x => s.matchRec x.2) = _
      rw [hpg, hkeep]
    · rw [← hpg]; exact Nat.lt_of_lt_of_eq (Nat.lt_succ_self _) (WalkCtx.measure_start p qs)
  have hhk : WalkCtx.hdrKey { C₀ with keep := s.matchRec }.toWalkCtx = (some fin, W₀.db.first fin) := by
    simp only [WalkCtx.hdrKey, hS₁.first]
  have hR2 : Reading (w1.relieve (fun _ => 0) fun _ => false) g1 u₁ u₂
      (scanHeld (some fin, W₀.db.first fin) fin s) w2 := by
    rw [World.relieve_zero _ (fun _ => rfl) fun _ => rfl, ← hhk]; exact hsc.reading
  obtain ⟨hS₂, hdb2, hlog2, hkeep2⟩ := hS₁.of_reading hne hg1 hR2 (fun _ hk => scanHeld_file hk) hcalls
  exact ⟨⟨{ C₀ with keep := s.matchRec }, rfl, hpg, hkeep, hhk, hsc⟩,
    (congrArg HeapFile.headerPageNo hs).trans (hno.trans hS₁.first), (congrArg HeapFile.hdrDirtyFlag hs).trans hcl, hS₂,
    hI.holds.keep hkeep2 (t.held_hdr fout) (t.held_cur fout) (by rw [hdb2]), hI.layout.congr (funext hlog2) hdb2,
    hI.last⟩

end Loop

/-- Files `t` (file 0) and `r` (file 1), each with header page 1 and data page
2, in a pool of five frames: `t` holds `(1,1,2)` and `(2,1,1)`, of three
one-byte STRING attributes `a`, `b`, `c`, and `r` holds nothing. -/
def twoFileWorld : World :=
  { pool := BufMgr.init 5 fun k =>
      if k = (some 0, 1) then .hdr ⟨1, 2, 2, 2⟩
      else if k = (some 0, 2) then .data ⟨2, -1, [some ⟨[1, 1, 2]⟩, some ⟨[2, 1, 1]⟩]⟩
      else if k = (some 1, 1) then .hdr ⟨1, 0, 2, 2⟩
      else if k = (some 1, 2) then .data ⟨2, -1, []⟩ else .raw
    db := ⟨fun n => if n = "t" then some 0 else if n = "r" then some 1 else none, 2, fun _ => 3, fun _ => 1⟩
    io := BufMgr.ioOk }

/-- `twoFileWorld` with file `t` emptied: its header's `firstPage` and
`lastPage` are -1, and the file layer answers a read of page -1 with a page
holding `(1,1,2)`. -/
def emptyInputWorld : World :=
  { twoFileWorld with
    pool := BufMgr.init 5 fun k =>
      if k = (some 0, 1) then .hdr ⟨1, 0, -1, -1⟩
      else if k = (some 0, -1) then .data ⟨-1, -1, [some ⟨[1, 1, 2]⟩]⟩
      else if k = (some 1, 1) then .hdr ⟨1, 0, 2, 2⟩
      else if k = (some 1, 2) then .data ⟨2, -1, []⟩ else .raw }

/-- An input file without data pages: the scan's constructor reads its
`firstPage` -1 as a page (heapfile.C:144), and `ScanSelect` from `t` into `r`,
projecting on `(c, a)` and selecting `a = 1`, appends the projection `(2,1)` of
the record the file layer holds at page -1, though `t` has no record. -/
theorem scanSelect_reads_page_minus_one :
    let a : AttrDesc := ⟨"t", "a", 0, .STRING, 1⟩
    let c : AttrDesc := ⟨"t", "c", 2, .STRING, 1⟩
    (emptyInputWorld.header 0).firstPage = -1 ∧
      (scanSelect ⟨100, 4⟩ 10 10 (fun _ => 0) emptyInputWorld "r" [c, a] (some a) .EQ (some [1]) 2).map
        (fun r => (r.1, (chainRecords (r.2.dataPage 1) [2]).map Prod.snd)) = some (.OK, [⟨[2, 1]⟩]) := by
  decide

end Minirel
