import Minirel.Heap.Handle
import Minirel.Heap.Insert

/-!
# An `InsertFileScan` appends to the file

`InsAt w₀ f us s w ps recs` says that the handle `s` is open on file `f` in a
writing session begun at `w₀`, holds the file's header page and its last data
page, and that the file is a well-formed heap file with data pages `ps` and
records `recs` (`Layout`). The handle's dirty flags are exactly the pages it
owes a write-back.

**Results.**
* `InsertFileScan.new_insAt`: the constructor, in a settled world with three
  free frames, opens a well-formed file at its last page.
* `InsAt.insertRecord`: an `insertRecord` of a record that fits on a page
  succeeds, on the last page or on a new page linked after it, and appends the
  record to the file under a RID that no record has.
* `InsAt.destructor`: the destructor writes everything back and unpins both
  pages: the world is settled again, with the pins and the files of the
  session's start.
-/
namespace Minirel

open BufMgr

/-- The handle `s` is open on file `f` at its last data page, and the file holds
the data pages `ps` and the records `recs`. -/
structure InsAt (w₀ : World) (f : FileId) (us : List Nat) (s : InsertFileScan) (w : World) (ps : List Int)
    (recs : List (RID × Record)) : Prop where
  writing : Writing w₀ f us (s.held f) s.wrote w
  holds : s.Holds f w
  layout : Layout w f ps recs
  last : ps.getLast? = some s.curPageNo

variable {w₀ w : World} {f : FileId} {us : List Nat} {s : InsertFileScan} {ps : List Int}
  {recs : List (RID × Record)}

/-- The constructor: the `HeapFile` constructor, then a clean unpin of the first
data page and a read of the last one when they differ. -/
theorem InsertFileScan.new_insAt {name : String} (hS : Settled f us w) (hnd : us.Nodup) (h3 : 3 ≤ us.length)
    (hopen : w.db.openFile name = .ok f) (hL : Layout w f ps recs) :
    ∃ s w', InsertFileScan.new w name = (.OK, s, w') ∧ InsAt w f us s w' ps recs ∧ FileCalls f w w' := by
  obtain ⟨p₀, qs, rfl⟩ : ∃ p₀ qs, ps = p₀ :: qs := by
    cases ps with
    | nil => cases hL.last
    | cons p₀ qs => exact ⟨p₀, qs, rfl⟩
  have hfp := (hL.chain.of_cons).1
  obtain ⟨hok, hh, hcur, hhd, hcd, -, himg, hdb, hW, hc1⟩ := HeapFile.new_holds hS hnd (by omega) hopen
    hL.hdr_below (hfp ▸ hL.below p₀ (List.mem_cons_self _ _))
  rcases hn : HeapFile.new w name with ⟨st, h, w1⟩
  simp only [hn] at hok hh hcur hhd hcd himg hdb hW hc1
  have hH : h.hdr w1 = (w.image f (w.db.first f)).toHdr := by rw [hh.hdr_eq, himg, hh.hdrNo, hdb]
  have hwr : ∀ q, (fun _ => false) q = h.wrote q := fun q => by simp [HeapFile.wrote, hhd, hcd]
  have hlast := hL.last
  simp only [InsertFileScan.new, hn, hH]
  obtain ⟨j, hj, -⟩ := hh.curFrame
  by_cases hc : h.curPageNo = (w.image f (w.db.first f)).toHdr.lastPage
  · rw [if_neg fun hne => hne.2 hc]
    exact ⟨⟨h⟩, w1, by rw [hok], ⟨hW.congr (fun _ => rfl) hwr, hh, hL.congr himg hdb, hlast.trans (by rw [hc])⟩, hc1⟩
  · rw [if_pos ⟨by rw [hj]; rfl, hc⟩, hh.file, hcd]
    obtain ⟨w2, hu, hdb2, hl2, hk2, hW2⟩ := hW.unPinPage (HeapFile.held_cur h f) false fun _ => rfl
    have hh2 : h.Holds f w2 := hh.keep hk2 (h.held_hdr f) (h.held_cur f) (by rw [hdb2])
    have hH2 : h.hdr w2 = (w.image f (w.db.first f)).toHdr := by
      rw [hh2.hdr_eq, World.image, hl2, ← World.image, ← hH, hh.hdr_eq]
    have hks : ∀ k, 0 < h.held f k - onePin (some f, h.curPageNo) k → k ∈ [(some f, h.headerPageNo)] :=
      fun k hk => by
        unfold HeapFile.held onePin at hk
        split_ifs at hk <;> first | omega | exact List.mem_singleton.2 ‹_›
    have hmem := List.mem_of_getLast?_eq_some hlast
    obtain ⟨j₂, w3, hr, hf3, hdb3, hl3, hk3, hW3⟩ := hW2.readPage
      (by rw [hdb2, hdb]; exact hL.below _ hmem) (hW2.free hnd hks (by simp only [List.length_singleton]; omega))
    simp only [hu, hH2, hr]
    have hne : h.headerPageNo ≠ h.curPageNo := fun e => by
      have : w.db.first f = p₀ := by rw [← hdb, ← hh.hdrNo, e, hcur, hfp]
      exact hL.hdr_off (this ▸ List.mem_cons_self _ _)
    obtain ⟨j₁, hp₁, hf₁⟩ := hh.hdrFrame
    refine ⟨_, _, rfl, ⟨hW3.congr (fun k => by simp only [HeapFile.held]; omega) fun q => by
      simp [HeapFile.wrote, hhd], ⟨rfl, hh.hdrNo.trans (by rw [hdb3, hdb2]), ⟨j₁, hp₁, hk3 _ _
      (hk2 _ _ hf₁ (h.held_hdr f)) (by simp [HeapFile.held, onePin, hne])⟩, ⟨j₂, rfl, hf3⟩⟩,
      hL.congr (funext fun q => by rw [World.image, hl3, hl2, ← World.image, himg])
      (hdb3.trans (hdb2.trans hdb)), hlast⟩, (hc1.trans (FileCalls.unPinPage hu)).trans (FileCalls.readPage hr)⟩

/-- The end of a successful `insertRecord` (`inserted`): a record inserted on
the current page, which is the last one, is appended to the file. The handle
may owe a write-back of its two pages. -/
theorem inserted_appends {wr : Int → Bool} (hW : Writing w₀ f us (s.held f) wr w)
    (hwr : ∀ q, wr q = true → q = s.headerPageNo ∨ q = s.curPageNo) (hh : s.Holds f w) (hL : Layout w f ps recs)
    (hl : ps.getLast? = some s.curPageNo) {G : Geom} {rec : Record} {P' : DataPage} {rid : RID}
    (hins : (s.page w).insertRecord G rec = .ok (P', rid)) :
    ∃ s' w', s.inserted (s.setPage w P') rid = (.ok rid, s', w') ∧ rid ∉ recs.map Prod.fst ∧
      InsAt w₀ f us s' w' ps (recs ++ [(rid, rec)]) ∧ FileCalls f w w' := by
  have hmem := List.mem_of_getLast?_eq_some hl
  have hne : s.headerPageNo ≠ s.curPageNo := fun e => hL.hdr_off (by rw [← hh.hdrNo, e]; exact hmem)
  obtain ⟨himg1, hW1⟩ := hh.setPage hW (HeapFile.held_cur _ f) P'
  let s1 : InsertFileScan := { s with curDirtyFlag := true, curRec := rid, hdrDirtyFlag := true }
  have hh0 : s.Holds f (s.setPage w P') := by unfold HeapFile.setPage; exact hh.setFrame _ _
  have hh1 : s1.Holds f (s.setPage w P') := ⟨hh0.file, hh0.hdrNo, hh0.hdrFrame, hh0.curFrame⟩
  obtain ⟨himg2, hW2⟩ := hh1.setHdr hW1 (HeapFile.held_hdr _ f)
    { s1.hdr (s.setPage w P') with recCnt := (s1.hdr (s.setPage w P')).recCnt + 1 }
  set w2 := s1.setHdr (s.setPage w P')
    { s1.hdr (s.setPage w P') with recCnt := (s1.hdr (s.setPage w P')).recCnt + 1 }
  have hH : s1.hdr (s.setPage w P') = (w.image f s.headerPageNo).toHdr := by
    rw [hh1.hdr_eq, himg1, Function.update_noteq hne]
  have hpage : ∀ q ∈ ps, (w2.image f q).toPage = if q = s.curPageNo then P' else (w.image f q).toPage :=
    fun q hq => by
      rw [himg2, himg1, Function.update_noteq fun e => hL.hdr_off (by rw [← hh.hdrNo, ← e]; exact hq),
        Function.update_apply]
      split <;> rfl
  obtain ⟨hL', hrid⟩ := hL.insertLast hl (by rw [← hh.page_eq]; exact hins) hpage
    (by rw [himg2, ← hh.hdrNo, Function.update_same, Img.toHdr_hdr, hH])
  exact ⟨s1, _, rfl, hrid, ⟨hW2.congr (fun _ => rfl) (s.update_wrote_both hwr),
    by unfold HeapFile.setHdr; exact hh1.setFrame _ _, hL', hl⟩, (hh.calls_setPage P').trans (hh1.calls_setHdr _)⟩

/-- The page-chaining path of `insertRecord`, while a frame is unpinned: a new
page, the DB layer's next one, is allocated, formatted, linked after the last
page and made the header's `lastPage`; the record goes to its slot 1. -/
theorem InsAt.insertRecordNewPage_of_free (hI : InsAt w₀ f us s w ps recs)
    (hfree : ∃ u < w.pool.numBufs, (w.pool.bufTable u).pinCnt = 0) {G : Geom} {rec : Record}
    (hlen : rec.length ≤ G.cap) :
    ∃ s' w', s.insertRecordNewPage G w rec = (.ok ⟨w.db.next f, 1⟩, s', w') ∧
      (⟨w.db.next f, 1⟩ : RID) ∉ recs.map Prod.fst ∧
      InsAt w₀ f us s' w' (ps ++ [w.db.next f]) (recs ++ [(⟨w.db.next f, 1⟩, rec)]) ∧ FileCalls f w w' := by
  have hh := hI.holds
  have hL := hI.layout
  have hmem := List.mem_of_getLast?_eq_some hI.last
  have hne : s.headerPageNo ≠ s.curPageNo := fun e => hL.hdr_off (by rw [← hh.hdrNo, e]; exact hmem)
  have hcn : s.curPageNo ≠ w.db.next f := fun e => by have := hL.below _ hmem; omega
  have hhn : s.headerPageNo ≠ w.db.next f := fun e => by have := hL.hdr_below; rw [← hh.hdrNo] at this; omega
  have hfirst : w.db.first f ≠ -1 := by have := hL.hdr_pos; omega
  obtain ⟨v, w1, ha, hdb1, hf1, hl1, hk1, hW1⟩ := hI.writing.allocPage hfree
  have hpos : ∀ k, 0 < s.held f k → 0 < s.held f k + onePin (some f, w.db.next f) k := fun _ h => by omega
  have hpn : 0 < s.held f (some f, w.db.next f) + onePin (some f, w.db.next f) (some f, w.db.next f) := by
    simp [onePin]
  have hh1 : s.Holds f w1 := hh.keep hk1 (s.held_hdr f) (s.held_cur f) (by rw [hdb1, Db.allocated_first _ _ hfirst])
  -- format the new page
  obtain ⟨-, hW2⟩ := hW1.write hf1 hpn (.data (DataPage.init (w.db.next f)))
  have himg2 := HeapFile.image_setFrame hW1 hf1 hpn (.data (DataPage.init (w.db.next f)))
  have hh2 : s.Holds f (w1.setFrame v (.data (DataPage.init (w.db.next f)))) := hh1.setFrame _ _
  have hc2 := (FileCalls.allocPage ha).trans (FileCalls.setFrame hf1 (.data (DataPage.init (w.db.next f))))
  rw [← hh.file] at ha
  simp only [InsertFileScan.insertRecordNewPage, ha]
  generalize hw2 : w1.setFrame v (.data (DataPage.init (w.db.next f))) = w2 at hW2 himg2 hh2 hc2 ⊢
  -- make it the header's last page
  obtain ⟨himg3, hW3⟩ := hh2.setHdr hW2 (hpos _ (s.held_hdr f))
    ⟨(s.hdr w2).pageCnt, (s.hdr w2).recCnt, (s.hdr w2).firstPage, w.db.next f⟩
  have hh3 : s.Holds f (s.setHdr w2 ⟨(s.hdr w2).pageCnt, (s.hdr w2).recCnt, (s.hdr w2).firstPage, w.db.next f⟩) := by
    unfold HeapFile.setHdr; exact hh2.setFrame _ _
  have hc3 := hc2.trans (hh2.calls_setHdr ⟨(s.hdr w2).pageCnt, (s.hdr w2).recCnt, (s.hdr w2).firstPage, w.db.next f⟩)
  generalize hw3 : s.setHdr w2 ⟨(s.hdr w2).pageCnt, (s.hdr w2).recCnt, (s.hdr w2).firstPage, w.db.next f⟩ = w3
    at himg3 hW3 hh3 hc3 ⊢
  -- link it after the current page
  obtain ⟨himg4, hW4⟩ := hh3.setPage hW3 (hpos _ (s.held_cur f))
    ⟨(s.page w3).curPage, w.db.next f, (s.page w3).slots⟩
  have hh4 : s.Holds f (s.setPage w3 ⟨(s.page w3).curPage, w.db.next f, (s.page w3).slots⟩) := by
    unfold HeapFile.setPage; exact hh3.setFrame _ _
  have hc4 := hc3.trans (hh3.calls_setPage ⟨(s.page w3).curPage, w.db.next f, (s.page w3).slots⟩)
  generalize hw4 : s.setPage w3 ⟨(s.page w3).curPage, w.db.next f, (s.page w3).slots⟩ = w4 at himg4 hW4 hh4 hc4 ⊢
  -- unpin the current page dirty
  obtain ⟨w5, hu, hdb5, hl5, hk5, hW5⟩ := hW4.unPinPage (hpos _ (s.held_cur f)) true fun h => by cases h
  have hc5 := hc4.trans (FileCalls.unPinPage hu)
  rw [← hh.file] at hu
  simp only [hu]
  -- the new page is the current page
  let s6 : InsertFileScan := { s with curDirtyFlag := true, curPage := some (v : Int), curPageNo := w.db.next f }
  have hf4 : w4.pool.hashTable.find (some f, w.db.next f) = some (v : Int) := by subst hw4 hw3 hw2; exact hf1
  have hdb4 : w4.db = w1.db := by subst hw4 hw3 hw2; rfl
  have hh5 : s6.Holds f w5 :=
    HeapFile.Holds.keep (h := s6.toHeapFile) ⟨hh4.file, hh4.hdrNo, hh4.hdrFrame, ⟨v, rfl, hf4⟩⟩ hk5
      (hpos _ (s.held_hdr f)) (by simp [onePin]) (by rw [hdb5])
  have hI5 : w5.image f = w4.image f := funext hl5
  obtain ⟨himg6, hW6⟩ := hh5.setHdr hW5 (by simp [HeapFile.held, onePin, hne, hhn])
    ⟨(s6.hdr w5).pageCnt + 1, (s6.hdr w5).recCnt, (s6.hdr w5).firstPage, w.db.next f⟩
  have himg : ∀ q, (s6.setHdr w5 ⟨(s6.hdr w5).pageCnt + 1, (s6.hdr w5).recCnt, (s6.hdr w5).firstPage,
      w.db.next f⟩).image f q = if q = s.headerPageNo then .hdr ⟨(s6.hdr w5).pageCnt + 1, (s6.hdr w5).recCnt,
        (s6.hdr w5).firstPage, w.db.next f⟩
      else if q = s.curPageNo then .data ⟨(s.page w3).curPage, w.db.next f, (s.page w3).slots⟩
      else if q = w.db.next f then .data (DataPage.init (w.db.next f)) else w.image f q := fun q => by
    rw [himg6, hI5, himg4, himg3, himg2]
    simp only [Function.update_apply]
    split_ifs <;> first | rfl | exact hl1 q ‹_›
  have hh6 : s6.Holds f (s6.setHdr w5 ⟨(s6.hdr w5).pageCnt + 1, (s6.hdr w5).recCnt, (s6.hdr w5).firstPage,
      w.db.next f⟩) := by
    unfold HeapFile.setHdr; exact hh5.setFrame _ _
  have hdb6 : (s6.setHdr w5 ⟨(s6.hdr w5).pageCnt + 1, (s6.hdr w5).recCnt, (s6.hdr w5).firstPage,
      w.db.next f⟩).db = w.db.allocated f := by
    rw [HeapFile.setHdr, World.setFrame_db, hdb5, hdb4, hdb1]
  have hc6 := hc5.trans (hh5.calls_setHdr
    ⟨(s6.hdr w5).pageCnt + 1, (s6.hdr w5).recCnt, (s6.hdr w5).firstPage, w.db.next f⟩)
  generalize hw6 : s6.setHdr w5 ⟨(s6.hdr w5).pageCnt + 1, (s6.hdr w5).recCnt, (s6.hdr w5).firstPage,
    w.db.next f⟩ = w6 at himg hW6 hh6 hdb6 hc6 ⊢
  have hH2 : s.hdr w2 = (w.image f s.headerPageNo).toHdr := by
    rw [hh2.hdr_eq, himg2, Function.update_noteq hhn, World.image, hl1 _ hhn]; rfl
  have hH5 : s6.hdr w5 = ⟨(s.hdr w2).pageCnt, (s.hdr w2).recCnt, (s.hdr w2).firstPage, w.db.next f⟩ := by
    rw [hh5.hdr_eq, hI5, himg4, Function.update_noteq hne, himg3, Function.update_same]; rfl
  have hP3 : s.page w3 = (w.image f s.curPageNo).toPage := by
    rw [hh3.page_eq, himg3, Function.update_noteq hne.symm, himg2, Function.update_noteq hcn, World.image,
      hl1 _ hcn]; rfl
  have hL6 : Layout w6 f (ps ++ [w.db.next f]) recs := by
    unfold Layout
    rw [hdb6, Db.allocated_first _ _ hfirst, Db.allocated_next]
    refine FileImage.link hL hI.last ?_ ?_ (fun q hq hqc => ?_) ?_
    · rw [himg, if_neg hhn.symm, if_neg hcn.symm, if_pos rfl]; rfl
    · rw [himg, if_neg hne.symm, if_pos rfl, hP3]; rfl
    · have hqh : q ≠ s.headerPageNo := fun e => hL.hdr_off (by rw [← hh.hdrNo, ← e]; exact hq)
      have hqn : q ≠ w.db.next f := fun e => by have := hL.below q hq; omega
      rw [himg, if_neg hqh, if_neg hqc, if_neg hqn]
    · rw [← hh.hdrNo, himg, if_pos rfl, hH5, hH2]; rfl
  have hins : (s6.page w6).insertRecord G rec = .ok (⟨w.db.next f, -1, [some rec]⟩, ⟨w.db.next f, 1⟩) := by
    rw [hh6.page_eq]
    show ((w6.image f (w.db.next f)).toPage).insertRecord G rec = _
    rw [himg, if_neg hhn.symm, if_neg hcn.symm, if_pos rfl]
    exact DataPage.insertRecord_init _ hlen
  have hwr : ∀ q, Function.update (if true = true then Function.update (Function.update (Function.update
      (Function.update (Function.update s.wrote (w.db.next f) true) (w.db.next f) true) s.headerPageNo true)
      s.curPageNo true) s.curPageNo false else fun _ => false) s.headerPageNo true q = true →
      q = s6.headerPageNo ∨ q = s6.curPageNo := fun q hq => by
    simp only [if_true, Function.update_apply] at hq
    split_ifs at hq with h₁ h₂
    all_goals first | exact .inl ‹_› | exact .inr ‹_› | cases hq | exact .inl ((s.eq_of_wrote hq).resolve_right h₂)
  obtain ⟨s', w', he, hrid, hI', hc'⟩ := inserted_appends (s := s6)
    (hW6.congr (fun k => by simp only [HeapFile.held]; omega) fun _ => rfl) hwr hh6 hL6 (by simp) hins
  rw [hins]
  exact ⟨s', w', he, hrid, hI', hc6.trans hc'⟩

/-- With three frames for the session, the page-chaining path has a frame for the new page. -/
theorem InsAt.insertRecordNewPage (hI : InsAt w₀ f us s w ps recs) (hnd : us.Nodup) (h3 : 3 ≤ us.length)
    {G : Geom} {rec : Record} (hlen : rec.length ≤ G.cap) :
    ∃ s' w', s.insertRecordNewPage G w rec = (.ok ⟨w.db.next f, 1⟩, s', w') ∧
      (⟨w.db.next f, 1⟩ : RID) ∉ recs.map Prod.fst ∧
      InsAt w₀ f us s' w' (ps ++ [w.db.next f]) (recs ++ [(⟨w.db.next f, 1⟩, rec)]) ∧ FileCalls f w w' :=
  hI.insertRecordNewPage_of_free (hI.writing.free hnd (fun k hk => s.mem_of_held_pos f hk)
    (by simp only [List.length_cons, List.length_nil]; omega)) hlen

/-- `insertRecord` of a record that fits on a page succeeds and appends the
record to the file, on the last page or on a new page linked after it. -/
theorem InsAt.insertRecord (hI : InsAt w₀ f us s w ps recs) (hnd : us.Nodup) (h3 : 3 ≤ us.length)
    {G : Geom} {rec : Record} (hlen : rec.length ≤ G.cap) :
    ∃ rid s' w' ps', s.insertRecord G w rec = (.ok rid, s', w') ∧ rid ∉ recs.map Prod.fst ∧
      InsAt w₀ f us s' w' ps' (recs ++ [(rid, rec)]) ∧ FileCalls f w w' := by
  obtain ⟨j, hj, -⟩ := hI.holds.curFrame
  have hpin : s.pinLast w = (.OK, s, w) := by simp [InsertFileScan.pinLast, hj]
  have hfull : ∀ x ∈ (s.page w).slots, x.isSome := by
    rw [hI.holds.page_eq]; exact hI.layout.full _ (List.mem_of_getLast?_eq_some hI.last)
  unfold InsertFileScan.insertRecord
  rw [if_neg (Nat.not_lt.2 hlen), hpin]
  rcases (DataPage.insertRecord_of_full hfull : (s.page w).insertRecord G rec = _ ∨ _) with hno | hok
  · obtain ⟨s', w', he, hrid, hI', hc⟩ := hI.insertRecordNewPage hnd h3 hlen
    simp only [hno]
    exact ⟨_, s', w', _, he, hrid, hI', hc⟩
  · obtain ⟨s', w', he, hrid, hI', hc⟩ :=
      inserted_appends hI.writing (fun _ => s.eq_of_wrote) hI.holds hI.layout hI.last hok
    simp only [hok]
    exact ⟨_, s', w', ps, he, hrid, hI', hc⟩

/-- The destructor unpins the current page dirty and the header page with its
flag: the session ends in a settled world, with the pins of its start, and the
file as the handle left it. -/
theorem InsAt.destructor (hI : InsAt w₀ f us s w ps recs) :
    Settled f us (s.destructor w) ∧ pinOf (s.destructor w).pool = pinOf w₀.pool ∧
      (s.destructor w).db.files = w₀.db.files ∧ Layout (s.destructor w) f ps recs := by
  have hh := hI.holds
  obtain ⟨j, hj, -⟩ := hh.curFrame
  have hne : s.headerPageNo ≠ s.curPageNo := fun e => hI.layout.hdr_off (by
    rw [← hh.hdrNo, e]; exact List.mem_of_getLast?_eq_some hI.last)
  obtain ⟨w1, hu1, hdb1, hl1, -, hW1⟩ := hI.writing.unPinPage (s.held_cur f) true fun h => by cases h
  obtain ⟨w2, hu2, hdb2, hl2, -, hW2⟩ := hW1.unPinPage (q := s.headerPageNo)
    (by simp [HeapFile.held, onePin, hne]) s.hdrDirtyFlag fun hd => by
      simp [Function.update_apply, hne, HeapFile.wrote, hd]
  have he : s.destructor w = w2 := by
    simp only [InsertFileScan.destructor, hj, hh.file, if_true, hu1, HeapFile.destructor, hu2]
  have hwr : ∀ q, (if s.hdrDirtyFlag = true then
      Function.update (Function.update s.wrote s.curPageNo false) s.headerPageNo false
      else Function.update s.wrote s.curPageNo false) q = false := fun q => by
    by_cases h₂ : q = s.curPageNo
    · subst h₂; split <;> simp [Function.update_apply, hne.symm]
    · cases hd : s.hdrDirtyFlag
      · simp [Function.update_apply, h₂, HeapFile.wrote, hd]
      · by_cases h₁ : q = s.headerPageNo <;> simp [Function.update_apply, h₁, h₂, HeapFile.wrote, hd]
  obtain ⟨hS, hpin⟩ := (hW2.congr (fun k => by simp only [HeapFile.held]; omega) hwr).settled
  rw [he]
  exact ⟨hS, hpin, hW2.files, hI.layout.congr (funext fun q => (hl2 q).trans (hl1 q)) (hdb2.trans hdb1)⟩

end Minirel
