import Minirel.Heap.Writing
import Minirel.Part1.ScanRun

/-!
# What the other version's `createHeapFile` writes, its scan reads as empty

part_001's `createHeapFile` (part_001:5-78) allocates the header page and the
first data page, and formats both. Its header differs from stage4's: `pageCnt`
is 2, because it counts the header page. The spec leaves that count to each
version (spec section 3, `pageCnt`).

**Results.**
* `Part1.createHeapFile_empty`: a new, non-empty name, in a settled world with
  two free frames, creates a file with header page 1 and one empty data page,
  page 2. The header reads `pageCnt = 2`, `recCnt = 0`, `firstPage = lastPage = 2`.
  The pool ends settled, with the pins it had.
* `Part1.createHeapFile_scans_empty`: part_001's constructor opens that file.
  `startScan` with any predicate accepts it, every call of `scanNext` answers
  FILEEOF, and the destructor gives back every pin. The file part_001 writes is
  the empty file its own reader expects.
-/
namespace Minirel

open BufMgr

/-- mirrors part_001:5-78 on its success path: a new, non-empty name, in a
settled world with two free frames where the DB layer's next file id has no
page in the pool. The header page is page 1, the data page page 2. -/
theorem Part1.createHeapFile_empty {w : World} {us : List Nat} {name : String}
    (hS : Settled w.db.fresh us w) (hnd : us.Nodup) (h2 : 2 ≤ us.length)
    (hnone : ∀ q, w.pool.hashTable.find (some w.db.fresh, q) = none) (hname : w.db.files name = none)
    (hne : name.isEmpty = false) :
    ∃ w', Part1.createHeapFile w name = (.OK, w') ∧ w'.db.openFile name = .ok w.db.fresh ∧
      Settled w.db.fresh us w' ∧ pinOf w'.pool = pinOf w.pool ∧ w'.db.first w.db.fresh = 1 ∧
      w'.header w.db.fresh = ⟨2, 0, 2, 2⟩ ∧ w'.dataPage w.db.fresh 2 = DataPage.init 2 := by
  set f := w.db.fresh
  set w1 : World := { w with db := (w.db.createFile name).2 }
  have hc : w.db.createFile name = (.OK, w1.db) := by simp only [Db.createFile, hname, w1]
  have hS1 : Settled f us w1 := ⟨hS.rw, hS.alloc, hS.content, hS.frames, fun q _ => hnone q⟩
  have hW := Writing.start hS1
  have hks0 : ∀ k, 0 < (fun _ => 0 : Key → Nat) k → k ∈ ([] : List Key) := fun _ h => absurd h (Nat.lt_irrefl 0)
  obtain ⟨v₁, wa, ha1, hdba, hfa, -, hka, hWa⟩ := hW.allocPage
    (hW.free hnd hks0 (by simp only [List.length_nil]; omega))
  have hks1 : ∀ k, 0 < 0 + onePin (some f, w1.db.next f) k → k ∈ [(some f, w1.db.next f)] := fun k hk => by
    unfold onePin at hk; split at hk
    · exact List.mem_singleton.2 ‹_›
    · omega
  obtain ⟨v₂, wc, ha2, hdbc, hfc, -, hkc, hWc⟩ := hWa.allocPage
    (hWa.free hnd hks1 (by simp only [List.length_singleton]; omega))
  have hn1 : w1.db.next f = 1 := by simp [w1, Db.createFile, hname]
  have hn2 : wa.db.next f = 2 := by rw [hdba, Db.allocated_next, hn1]; rfl
  obtain ⟨hld, hWd⟩ := hWc.write hfc (by simp [onePin]) (.data (DataPage.init (wa.db.next f)))
  set wd := wc.setFrame v₂ (.data (DataPage.init (wa.db.next f)))
  have hne' : w1.db.next f ≠ wa.db.next f := by rw [hn1, hn2]; decide
  have hfd : wd.pool.hashTable.find (some f, w1.db.next f) = some (v₁ : Int) :=
    hkc _ _ hfa (by simp only [onePin, if_true]; omega)
  obtain ⟨hle, hWe⟩ :=
    hWd.write hfd (by simp only [onePin, if_true]; omega) (.hdr ⟨2, 0, wa.db.next f, wa.db.next f⟩)
  set we := wd.setFrame v₁ (.hdr ⟨2, 0, wa.db.next f, wa.db.next f⟩)
  obtain ⟨wf, huf, hdbf, hlf, -, hWf⟩ := hWe.unPinPage (q := wa.db.next f) (by simp [onePin, hne'.symm]) true nofun
  obtain ⟨wg, hug, hdbg, hlg, -, hWg⟩ := hWf.unPinPage (q := w1.db.next f)
    (by simp [onePin, hne']) true nofun
  have hopen : w1.db.openFile name = .ok f := by simp [w1, Db.createFile, Db.openFile, hname, f]
  have hcr : Part1.createHeapFile w name = Part1.formatHeapFile w1 f := by
    unfold Part1.createHeapFile
    simp only [hne, if_false, Bool.false_eq_true]
    rw [show w.db.openFile name = .error .UNIXERR by simp [Db.openFile, hname]]
    simp only [ne_eq, not_true_eq_false, if_false]
    rw [hc]
    simp only [hopen]
  rw [hcr]
  unfold Part1.formatHeapFile
  rw [ha1]
  simp only [ha2]
  rw [huf]
  refine ⟨wg, hug, ?_, ?_⟩
  · rw [← hopen]; simp only [Db.openFile, hWg.files]
  obtain ⟨hSg, hping⟩ := (hWg.congr (fun k => by omega) fun q => by
    simp only [if_true, Function.update_apply]; split_ifs <;> rfl).settled
  have h1st : w1.db.first f = -1 := by simp [w1, Db.createFile, hname]
  have hfa1 : wa.db.first f = 1 := by rw [hdba, Db.allocated_first_of_none _ _ h1st, hn1]
  have hfirst : wg.db.first f = 1 := by
    rw [hdbg, hdbf]
    show wc.db.first f = 1
    rw [hdbc, Db.allocated_first _ _ (by rw [hfa1]; decide), hfa1]
  refine ⟨hSg, hping, hfirst, ?_, ?_⟩
  · show (logical wg.pool (some f, wg.db.first f)).toHdr = _
    rw [hfirst, hlg, hlf, hle, if_pos hn1.symm, hn2]; rfl
  · show (logical wg.pool (some f, 2)).toPage = _
    rw [hlg, hlf, hle, if_neg (by rw [hn1]; decide), hld, if_pos hn2.symm, hn2]; rfl
/-- part_001's `createHeapFile`, then its `HeapFileScan` constructor and
`startScan` on the new file: all return OK, and from then on every call of
`scanNext` answers FILEEOF. The destructor leaves the pins the pool had before
the file was created. -/
theorem Part1.createHeapFile_scans_empty {w : World} {us : List Nat} {name : String}
    (hS : Settled w.db.fresh us w) (hnd : us.Nodup) (h2 : 2 ≤ us.length)
    (hnone : ∀ q, w.pool.hashTable.find (some w.db.fresh, q) = none) (hname : w.db.files name = none)
    (hne : name.isEmpty = false) (offset length : Int) (type : Datatype) (filter : Option (List UInt8))
    (op : Operator) (hparm : filter = none ∨ HeapFileScan.ScanParmOk offset length type) :
    let c : Status × World := Part1.createHeapFile w name
    let o : Status × HeapFileScan × World := Part1.HeapFileScan.new c.2 name
    let st : Status × HeapFileScan × World := Part1.HeapFileScan.startScan o.2.1 o.2.2 offset length type filter op
    c.1 = .OK ∧ c.2.header w.db.fresh = ⟨2, 0, 2, 2⟩ ∧ o.1 = .OK ∧ st.1 = .OK ∧
      (∀ n k, 0 < n → Part1.scanAnswers n k st.2.1 st.2.2 = some (List.replicate k (.error .FILEEOF))) ∧
      pinOf (Part1.HeapFileScan.destructor st.2.1 st.2.2).pool = pinOf w.pool := by
  obtain ⟨w', hc, hopen, hS', hpin, hfirst, hhdr, hdata⟩ := Part1.createHeapFile_empty hS hnd h2 hnone hname hne
  obtain ⟨u₁, u₂, rest, rfl⟩ : ∃ u₁ u₂ rest, us = u₁ :: u₂ :: rest := by
    match us, h2 with
    | u₁ :: u₂ :: rest, _ => exact ⟨u₁, u₂, rest, rfl⟩
  have hu : u₁ ≠ u₂ := fun e => (List.nodup_cons.1 hnd).1 (e ▸ List.mem_cons_self _ _)
  obtain ⟨h₁, hp₁⟩ := hS'.frames u₁ (List.mem_cons_self _ _)
  obtain ⟨h₂, hp₂⟩ := hS'.frames u₂ (List.mem_cons_of_mem _ (List.mem_cons_self _ _))
  obtain ⟨g, hcg, hfresh⟩ := hS'.content
  let C₀ : ScanCtx := ⟨⟨w', w.db.fresh, fun _ => true⟩, g, u₁, u₂, hfresh, hu⟩
  have hchain : Chain C₀.pg (C₀.w₀.header C₀.f).firstPage [2] := by
    show Chain (w'.dataPage w.db.fresh) (w'.header w.db.fresh).firstPage [2]
    rw [hhdr]
    exact .cons (by decide) (by rw [hdata]; rfl) (by rw [hdata]; exact .nil)
  have hlive : (C₀.pg 2).live = [] := by show (w'.dataPage w.db.fresh 2).live = []; rw [hdata]; rfl
  obtain ⟨hok, h0'⟩ := Part1.ScanOn.new (C := C₀) (Reading.start hS'.rw hcg h₁ h₂ hp₁ hp₂) hopen
    (by rw [hfirst]; decide) rfl hchain
  obtain ⟨hst, h1⟩ := h0'.startScan hchain op hparm
  rw [hlive] at h1
  simp only [hc]
  refine ⟨trivial, hhdr, hok, hst, fun n k hn => ?_, funext fun key => ?_⟩
  · have hS1 := Part1.Scanning.answers k (⟨2, [], [], h1, rfl, hn⟩ : Part1.Scanning _ n [] _ _)
    rw [hS1]
    simp [answer]
  · rw [Part1.Scanning.destructor_pins (⟨2, [], [], h1, rfl, Nat.zero_lt_one⟩ : Part1.Scanning _ 1 [] _ _) key, hpin]

/-- The file `t` created in an empty pool of two frames, scanned with no filter. -/
theorem Part1.createHeapFile_scans_empty_two_frames :
    let w : World := emptyWorld 2
    let c : Status × World := Part1.createHeapFile w "t"
    let o : Status × HeapFileScan × World := Part1.HeapFileScan.new c.2 "t"
    let st : Status × HeapFileScan × World := Part1.HeapFileScan.startScan o.2.1 o.2.2 0 0 .STRING none .EQ
    c.1 = .OK ∧ c.2.header w.db.fresh = ⟨2, 0, 2, 2⟩ ∧ o.1 = .OK ∧ st.1 = .OK ∧
      (∀ n k, 0 < n → Part1.scanAnswers n k st.2.1 st.2.2 = some (List.replicate k (.error .FILEEOF))) ∧
      pinOf (Part1.HeapFileScan.destructor st.2.1 st.2.2).pool = pinOf w.pool :=
  Part1.createHeapFile_scans_empty
    (⟨⟨fun _ => rfl, fun _ => rfl⟩, rfl, ⟨⟨fun _ => false, fun _ => false⟩,
      contentInv_inductive.init _ ⟨⟨2, _, by decide, rfl⟩, rfl⟩, fun _ => rfl⟩, by decide, fun _ _ => rfl⟩ :
      Settled 0 [0, 1] (emptyWorld 2))
    (by decide) (by decide) (fun _ => rfl) rfl (by decide) 0 0 .STRING none .EQ (.inl rfl)

end Minirel
