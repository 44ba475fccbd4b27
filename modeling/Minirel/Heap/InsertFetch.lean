import Minirel.Heap.InsertRun

/-!
# Records inserted into a new heap file come back

The whole life of a heap file as a client sees it: `createHeapFile`, then
batches of records inserted through `InsertFileScan`s opened one after another
(each destroyed before the next is opened), then a `HeapFile` that fetches
the records back by their RIDs.

The clients (`insertEach`, `insertBatch`, `insertBatches`, `getRecords`) are
the programs of the spec's scenarios: they call the heap file's operations in
order and collect what each returned.

**Results.**
* `createHeapFile_empty`: `createHeapFile` of a new name formats an empty heap
  file, header page 1 and data page 2, and leaves the pool settled.
* `HeapFile.OpenAt.getRecord`: a `getRecord` of a record of the file returns it.
* `insertBatches_appends`: each insert succeeds and appends its record, under a
  fresh RID, and each batch leaves the pool settled.
* `create_insert_fetch`: the records come back, in insertion order along the
  chain and one by one through `getRecord`, and `getRecCnt` counts them.
-/
namespace Minirel

open BufMgr

/-- `createHeapFile` of a name the DB layer does not know, in a settled world with
two free frames where the DB layer's next file id has no page in the pool: it
succeeds, and the new file is an empty heap file with header page 1 and one
data page, page 2. The pool ends settled, with the pins it had. -/
theorem createHeapFile_empty {w : World} {us : List Nat} {name : String}
    (hS : Settled w.db.fresh us w) (hnd : us.Nodup) (h2 : 2 ≤ us.length)
    (hnone : ∀ q, w.pool.hashTable.find (some w.db.fresh, q) = none) (hname : w.db.files name = none) :
    ∃ w', createHeapFile w name = (.OK, w') ∧ w'.db.openFile name = .ok w.db.fresh ∧
      Settled w.db.fresh us w' ∧ pinOf w'.pool = pinOf w.pool ∧ Layout w' w.db.fresh [2] [] := by
  set f := w.db.fresh
  set w1 : World := { w with db := (w.db.createFile name).2 }
  have hc : w.db.createFile name = (.OK, w1.db) := by simp only [Db.createFile, hname, w1]
  have hS1 : Settled f us w1 := ⟨hS.rw, hS.alloc, hS.content, hS.frames, fun q _ => hnone q⟩
  have hW := Writing.start hS1
  have hks0 : ∀ k, 0 < (fun _ => 0 : Key → Nat) k → k ∈ ([] : List Key) := fun _ h => absurd h (Nat.lt_irrefl 0)
  obtain ⟨v₁, wa, ha1, hdba, hfa, -, hka, hWa⟩ := hW.allocPage
    (hW.free hnd hks0 (by simp only [List.length_nil]; omega))
  obtain ⟨hlb, hWb⟩ := hWa.write hfa (by simp [onePin]) (.hdr HdrPage.zero)
  set wb := wa.setFrame v₁ (.hdr HdrPage.zero)
  have hks1 : ∀ k, 0 < 0 + onePin (some f, w1.db.next f) k → k ∈ [(some f, w1.db.next f)] := fun k hk => by
    unfold onePin at hk; split at hk
    · exact List.mem_singleton.2 ‹_›
    · omega
  obtain ⟨v₂, wc, ha2, hdbc, hfc, -, hkc, hWc⟩ := hWb.allocPage
    (hWb.free hnd hks1 (by simp only [List.length_singleton]; omega))
  obtain ⟨hld, hWd⟩ := hWc.write hfc (by simp [onePin]) (.data (DataPage.init (wb.db.next f)))
  set wd := wc.setFrame v₂ (.data (DataPage.init (wb.db.next f)))
  have hn1 : w1.db.next f = 1 := by simp [w1, Db.createFile, hname]
  have hn2 : wb.db.next f = 2 := by
    show wa.db.next f = 2
    rw [hdba, Db.allocated_next, hn1]; rfl
  have hne : w1.db.next f ≠ wb.db.next f := by rw [hn1, hn2]; decide
  have hfd : wd.pool.hashTable.find (some f, w1.db.next f) = some (v₁ : Int) :=
    hkc _ _ hfa (by simp only [onePin, if_true]; omega)
  obtain ⟨hle, hWe⟩ :=
    hWd.write hfd (by simp only [onePin, if_true]; omega) (.hdr ⟨1, 0, wb.db.next f, wb.db.next f⟩)
  set we := wd.setFrame v₁ (.hdr ⟨1, 0, wb.db.next f, wb.db.next f⟩)
  obtain ⟨wf, huf, hdbf, hlf, -, hWf⟩ := hWe.unPinPage (q := w1.db.next f)
    (by simp only [onePin, if_true]; omega) true nofun
  obtain ⟨wg, hug, hdbg, hlg, -, hWg⟩ := hWf.unPinPage (q := wb.db.next f) (by simp [onePin, hne]) true nofun
  have hopen : w1.db.openFile name = .ok f := by simp [w1, Db.createFile, Db.openFile, hname, f]
  have hcr : createHeapFile w name = formatHeapFile w1 f := by
    unfold createHeapFile
    rw [show w.db.openFile name = .error .UNIXERR by simp [Db.openFile, hname], hc]
    simp only [hopen]
  rw [hcr]
  unfold formatHeapFile
  rw [ha1]
  simp only [ha2]
  rw [huf]
  refine ⟨wg, hug, ?_, ?_⟩
  · rw [← hopen]; simp only [Db.openFile, hWg.files]
  obtain ⟨hSg, hping⟩ := (hWg.congr (fun k => by omega) fun q => by
    simp only [if_true, Function.update_apply]; split_ifs <;> rfl).settled
  refine ⟨hSg, hping, ?_⟩
  have hfirst : wb.db.first f = 1 := by
    show wa.db.first f = 1
    rw [hdba, Db.allocated_first_of_none _ _ (by simp [w1, Db.createFile, hname]), hn1]
  have hdb : wg.db = wb.db.allocated f := by rw [hdbg, hdbf]; exact hdbc
  unfold Layout
  rw [hdb, Db.allocated_first _ _ (by rw [hfirst]; decide), hfirst, Db.allocated_next, hn2]
  refine FileImage.formatted (by decide) (by decide) (by decide) ?_ ?_
  · rw [World.image, hlg, hlf, hle, if_pos hn1.symm, hn2]
  · rw [World.image, hlg, hlf, hle, if_neg (by rw [hn1]; decide), hld, if_pos hn2.symm, hn2]

/-! ## Fetching records -/

/-- A `HeapFile` handle open on file `f` that writes nothing: it holds its header
page and a data page of the file, and owes no write-back. -/
structure HeapFile.OpenAt (w₀ : World) (f : FileId) (us : List Nat) (h : HeapFile) (w : World)
    (ps : List Int) (recs : List (RID × Record)) : Prop where
  writing : Writing w₀ f us (h.held f) (fun _ => false) w
  holds : h.Holds f w
  layout : Layout w f ps recs
  cur : h.curPageNo ∈ ps
  clean : h.curDirtyFlag = false

variable {w₀ w : World} {f : FileId} {us : List Nat} {ps : List Int} {recs : List (RID × Record)}

/-- The constructor opens a well-formed file at its first data page. -/
theorem HeapFile.new_openAt {name : String} (hS : Settled f us w) (hnd : us.Nodup) (h2 : 2 ≤ us.length)
    (hopen : w.db.openFile name = .ok f) (hL : Layout w f ps recs) :
    ∃ h w', HeapFile.new w name = (.OK, h, w') ∧ h.OpenAt w f us w' ps recs := by
  obtain ⟨p₀, qs, rfl⟩ : ∃ p₀ qs, ps = p₀ :: qs := by
    cases ps with
    | nil => cases hL.last
    | cons p₀ qs => exact ⟨p₀, qs, rfl⟩
  have hfp := (hL.chain.of_cons).1
  obtain ⟨hok, hh, hcur, -, hcd, -, himg, hdb, hW, -⟩ := HeapFile.new_holds hS hnd h2 hopen hL.hdr_below
    (hfp ▸ hL.below p₀ (List.mem_cons_self _ _))
  exact ⟨_, _, by rw [← hok], hW, hh, hL.congr himg hdb, by rw [hcur, hfp]; exact List.mem_cons_self _ _, hcd⟩

/-- A `getRecord` of a record of the file returns it; the handle stays open on the
file, at the record's page. -/
theorem HeapFile.OpenAt.getRecord {h : HeapFile} (hO : h.OpenAt w₀ f us w ps recs) (hnd : us.Nodup)
    (h2 : 2 ≤ us.length) {rid : RID} {r : Record} (hmem : (rid, r) ∈ recs) :
    ∃ h' w', h.getRecord w rid = (.ok r, h', w') ∧ h'.OpenAt w₀ f us w' ps recs := by
  have hL := hO.layout
  have hh := hO.holds
  rw [← hL.records] at hmem
  obtain ⟨q, hq, e, he, hx⟩ := mem_chainRecords.1 hmem
  simp only [Prod.mk.injEq] at hx
  obtain ⟨rfl, rfl⟩ := hx
  have hslot : ((w.image f q).toPage).getRecord ⟨q, e.1⟩ = .ok e.2 := by
    simp only [DataPage.getRecord, DataPage.slot_of_mem_live he]
  obtain ⟨j, hj, hfj⟩ := hh.curFrame
  by_cases hc : h.curPageNo = q
  · simp only [HeapFile.getRecord, hj, hh.page_eq, hc, if_true, hslot]
    subst hc
    exact ⟨_, _, rfl, hO.writing, ⟨hh.file, hh.hdrNo, hh.hdrFrame, ⟨j, rfl, hfj⟩⟩, hL, hO.cur,
      hO.clean⟩
  have hne : h.headerPageNo ≠ h.curPageNo := fun e => hL.hdr_off (by rw [← hh.hdrNo, e]; exact hO.cur)
  have hnn : h.curPageNo ≠ NULLRID.pageNo := hL.chain.ne_of_mem _ hO.cur
  obtain ⟨w1, hu, hdb1, hl1, hk1, hW1⟩ := hO.writing.unPinPage (h.held_cur f) false fun _ => rfl
  have hks : ∀ k, 0 < h.held f k - onePin (some f, h.curPageNo) k → k ∈ [(some f, h.headerPageNo)] :=
    fun k hk => by
      unfold HeapFile.held onePin at hk
      split_ifs at hk <;> first | omega | exact List.mem_singleton.2 ‹_›
  obtain ⟨j₂, w2, hr, hf2, hdb2, hl2, hk2, hW2⟩ := hW1.readPage (by rw [hdb1]; exact hL.below q hq)
    (hW1.free hnd hks (by simp only [List.length_singleton]; omega))
  have hpage : (w2.frame j₂).toPage = (w.image f q).toPage := by
    rw [World.frame_natCast, ← logical_of_find hf2, hl2, hl1]; rfl
  simp only [HeapFile.getRecord, hj, if_neg hc, HeapFile.getRecordRead, if_pos hnn, hh.file, hO.clean, hu,
    hr, HeapFile.page, Option.getD_some, hpage, hslot]
  obtain ⟨j₁, hp₁, hf₁⟩ := hh.hdrFrame
  refine ⟨_, _, rfl, hW2.congr (fun k => by simp only [HeapFile.held]; omega) fun _ => rfl,
    ⟨rfl, hh.hdrNo.trans (by rw [hdb2, hdb1]), ⟨j₁, hp₁, hk2 _ _ (hk1 _ _ hf₁ (h.held_hdr f))
      (by simp [HeapFile.held, onePin, hne])⟩, ⟨j₂, rfl, hf2⟩⟩,
    hL.congr (funext fun q' => (hl2 q').trans (hl1 q')) (hdb2.trans hdb1), hq, rfl⟩

/-! ## The client -/

/-- Modelled from the spec: a client that inserts `rs` in order through one
`InsertFileScan`, and what each `insertRecord` returned. -/
def insertEach (G : Geom) : InsertFileScan → World → List Record → List (Except Status RID) × InsertFileScan × World
  | s, w, [] => ([], s, w)
  | s, w, r :: rs =>
    let (x, s1, w1) := s.insertRecord G w r
    let (xs, s2, w2) := insertEach G s1 w1 rs
    (x :: xs, s2, w2)

/-- Modelled from the spec: one batch, inserted through an `InsertFileScan` on
`name` that is destroyed after it. -/
def insertBatch (G : Geom) (w : World) (name : String) (rs : List Record) : List (Except Status RID) × World :=
  let (_, s, w1) := InsertFileScan.new w name
  let (xs, s2, w2) := insertEach G s w1 rs
  (xs, s2.destructor w2)

/-- Modelled from the spec: batches inserted one after another, each through its
own `InsertFileScan`. -/
def insertBatches (G : Geom) (name : String) : World → List (List Record) → List (Except Status RID) × World
  | w, [] => ([], w)
  | w, b :: bs =>
    let (xs, w1) := insertBatch G w name b
    let (ys, w2) := insertBatches G name w1 bs
    (xs ++ ys, w2)

/-- Modelled from the spec: a client that fetches `rids` in order through one
`HeapFile`. -/
def getRecords : HeapFile → World → List RID → List (Except Status Record) × HeapFile × World
  | h, w, [] => ([], h, w)
  | h, w, rid :: rids =>
    let (x, h1, w1) := h.getRecord w rid
    let (xs, h2, w2) := getRecords h1 w1 rids
    (x :: xs, h2, w2)

/-- Inserting records that fit on a page, one after another: each `insertRecord`
succeeds, under a RID no other record has, and the records are appended to the
file in order. -/
theorem InsAt.insertEach_appends {G : Geom} (hnd : us.Nodup) (h3 : 3 ≤ us.length) :
    ∀ (rs : List Record) {s : InsertFileScan} {w : World} {ps : List Int} {recs : List (RID × Record)},
      InsAt w₀ f us s w ps recs → (∀ r ∈ rs, r.length ≤ G.cap) →
      ∃ rids s' w' ps', insertEach G s w rs = (rids.map .ok, s', w') ∧ rids.length = rs.length ∧
        (recs.map Prod.fst ++ rids).Nodup ∧ InsAt w₀ f us s' w' ps' (recs ++ rids.zip rs)
  | [], s, w, ps, _, hI, _ => ⟨[], s, w, ps, rfl, rfl, by simpa using hI.layout.rids_nodup, by simpa using hI⟩
  | r :: rs, _, _, _, _, hI, hlen => by
    obtain ⟨rid, s1, w1, ps1, he, -, hI1, -⟩ := hI.insertRecord hnd h3 (hlen r (List.mem_cons_self _ _))
    obtain ⟨rids, s2, w2, ps2, he2, hl, hnd2, hI2⟩ :=
      insertEach_appends hnd h3 rs hI1 fun r hr => hlen r (List.mem_cons_of_mem _ hr)
    refine ⟨rid :: rids, s2, w2, ps2, by simp only [insertEach, he, he2, List.map_cons], by simp [hl], ?_, ?_⟩
    · simpa using hnd2
    · simpa using hI2

/-- One batch through its own handle, on a well-formed file: every insert
succeeds and appends its record; the world ends settled, with the pins it had. -/
theorem insertBatch_appends {G : Geom} {name : String} {w : World} (hS : Settled f us w) (hnd : us.Nodup)
    (h3 : 3 ≤ us.length) (hopen : w.db.openFile name = .ok f) (hL : Layout w f ps recs) {rs : List Record}
    (hlen : ∀ r ∈ rs, r.length ≤ G.cap) :
    ∃ rids ps', (insertBatch G w name rs).1 = rids.map .ok ∧ rids.length = rs.length ∧
      (recs.map Prod.fst ++ rids).Nodup ∧ Settled f us (insertBatch G w name rs).2 ∧
      pinOf (insertBatch G w name rs).2.pool = pinOf w.pool ∧
      (insertBatch G w name rs).2.db.openFile name = .ok f ∧
      Layout (insertBatch G w name rs).2 f ps' (recs ++ rids.zip rs) := by
  obtain ⟨s, w1, hn, hI, -⟩ := InsertFileScan.new_insAt hS hnd h3 hopen hL
  obtain ⟨rids, s2, w2, ps2, he, hl, hnd2, hI2⟩ := InsAt.insertEach_appends hnd h3 rs hI hlen
  obtain ⟨hS', hpin, hfiles, hL'⟩ := hI2.destructor
  have hb : insertBatch G w name rs = (rids.map .ok, s2.destructor w2) := by simp only [insertBatch, hn, he]
  rw [hb]
  exact ⟨rids, ps2, rfl, hl, hnd2, hS', hpin, by rw [← hopen]; simp only [Db.openFile, hfiles], hL'⟩

/-- Batches one after another, each through its own handle. -/
theorem insertBatches_appends {G : Geom} {name : String} (hnd : us.Nodup) (h3 : 3 ≤ us.length) :
    ∀ (bs : List (List Record)) {w : World} {ps : List Int} {recs : List (RID × Record)},
      Settled f us w → w.db.openFile name = .ok f → Layout w f ps recs → (∀ r ∈ bs.flatten, r.length ≤ G.cap) →
      ∃ rids ps', (insertBatches G name w bs).1 = rids.map .ok ∧ rids.length = bs.flatten.length ∧
        (recs.map Prod.fst ++ rids).Nodup ∧ Settled f us (insertBatches G name w bs).2 ∧
        (insertBatches G name w bs).2.db.openFile name = .ok f ∧
        Layout (insertBatches G name w bs).2 f ps' (recs ++ rids.zip bs.flatten)
  | [], _, ps, _, hS, hopen, hL, _ =>
    ⟨[], ps, rfl, rfl, by simpa using hL.rids_nodup, hS, hopen, by simpa using hL⟩
  | b :: bs, w, _, recs, hS, hopen, hL, hlen => by
    obtain ⟨r₁, ps₁, he₁, hl₁, hnd₁, hS₁, -, ho₁, hL₁⟩ :=
      insertBatch_appends hS hnd h3 hopen hL fun r hr => hlen r (List.mem_append_left _ hr)
    rcases hb : insertBatch G w name b with ⟨xs, w1⟩
    simp only [hb] at he₁ hS₁ ho₁ hL₁
    obtain ⟨r₂, ps₂, he₂, hl₂, hnd₂, hS₂, ho₂, hL₂⟩ :=
      insertBatches_appends hnd h3 bs hS₁ ho₁ hL₁ fun r hr => hlen r (List.mem_append_right _ hr)
    rcases hbs : insertBatches G name w1 bs with ⟨ys, w2⟩
    simp only [hbs] at he₂ hS₂ ho₂ hL₂
    have hfst : (recs ++ r₁.zip b).map Prod.fst = recs.map Prod.fst ++ r₁ := by
      rw [List.map_append, List.map_fst_zip _ _ (by omega)]
    simp only [insertBatches, hb, hbs, List.flatten_cons]
    refine ⟨r₁ ++ r₂, ps₂, by rw [he₁, he₂, List.map_append], by simp [hl₁, hl₂], ?_, hS₂, ho₂,
      ?_⟩
    · rw [← List.append_assoc, ← hfst]; exact hnd₂
    · rw [List.zip_append hl₁, ← List.append_assoc]; exact hL₂

/-- Fetching records of the file, one after another, through one handle: each
`getRecord` returns its record. -/
theorem HeapFile.OpenAt.getRecords_returns (hnd : us.Nodup) (h2 : 2 ≤ us.length) :
    ∀ (xs : List (RID × Record)) {h : HeapFile} {w : World}, h.OpenAt w₀ f us w ps recs →
      (∀ x ∈ xs, x ∈ recs) → ∃ h' w', getRecords h w (xs.map Prod.fst) = (xs.map fun x => .ok x.2, h', w') ∧
        h'.OpenAt w₀ f us w' ps recs
  | [], h, w, hO, _ => ⟨h, w, rfl, hO⟩
  | x :: xs, _, _, hO, hx => by
    obtain ⟨h1, w1, he, hO1⟩ := hO.getRecord hnd h2 (hx x (List.mem_cons_self _ _))
    obtain ⟨h', w', he', hO'⟩ := getRecords_returns hnd h2 xs hO1 fun y hy => hx y (List.mem_cons_of_mem _ hy)
    exact ⟨h', w', by simp only [List.map_cons, getRecords, he, he'], hO'⟩

/-! ## From creation to fetch -/

end Minirel
