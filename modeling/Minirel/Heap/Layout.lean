import Minirel.Heap.Page

/-!
# Well-formed heap files and what inserting does to them

`FileImage L hdrNo next ps recs` says that the pages `L` of a file hold a heap
file: the header is page `hdrNo`, the data pages `ps` are linked from the
header's `firstPage` to its `lastPage`, every slot is in use, the live records
are `recs` in chain and slot order, and `pageCnt` and `recCnt` count them.
Every page the file uses is below `next`, the DB layer's next page number.
The abstract file is the list `recs`; these lemmas say that the page-level
steps of `InsertFileScan::insertRecord` append one record to it.

**Results.**
* `FileImage.formatted`: the two pages `createHeapFile` writes form an empty file.
* `FileImage.insertLast`: a record inserted on the last page, with the header's
  `recCnt` incremented, is appended to the file, under a RID no record has.
* `FileImage.link`: an empty page linked after the last one, with the
  header's `lastPage` and `pageCnt` updated, extends the file with no records.
-/
namespace Minirel

/-- The pages `L` hold a heap file with header page `hdrNo`, data pages `ps` and
live records `recs`, using only pages below `next`. -/
structure FileImage (L : Int → Img) (hdrNo next : Int) (ps : List Int) (recs : List (RID × Record)) : Prop where
  chain : Chain (fun q => (L q).toPage) (L hdrNo).toHdr.firstPage ps
  last : ps.getLast? = some (L hdrNo).toHdr.lastPage
  pageCnt : (L hdrNo).toHdr.pageCnt = ps.length
  recCnt : (L hdrNo).toHdr.recCnt = recs.length
  records : chainRecords (fun q => (L q).toPage) ps = recs
  full : ∀ q ∈ ps, ∀ x ∈ (L q).toPage.slots, x.isSome
  below : ∀ q ∈ ps, q < next
  hdr_pos : 0 < hdrNo
  hdr_below : hdrNo < next
  hdr_off : hdrNo ∉ ps

/-! ## Chains -/

theorem Chain.curPage_of_mem {pg : Int → DataPage} :
    ∀ {p : Int} {ps : List Int}, Chain pg p ps → ∀ q ∈ ps, (pg q).curPage = q
  | _, _, .cons _ hn hc, q, hq => by
    rcases List.mem_cons.1 hq with rfl | hq
    · exact hn
    · exact hc.curPage_of_mem q hq

theorem Chain.ne_of_mem {pg : Int → DataPage} :
    ∀ {p : Int} {ps : List Int}, Chain pg p ps → ∀ q ∈ ps, q ≠ -1
  | _, _, .cons hp _ hc, q, hq => by
    rcases List.mem_cons.1 hq with rfl | hq
    · exact hp
    · exact hc.ne_of_mem q hq

/-- A chain's pages after any prefix form a chain. -/
theorem Chain.drop {pg : Int → DataPage} : ∀ {x : Int} (xs : List Int) {ys : List Int},
    Chain pg x (xs ++ ys) → ∃ y, Chain pg y ys
  | x, [], _, h => ⟨x, h⟩
  | _, _ :: xs, _, h => drop xs h.of_cons.2.2.2

/-- A page `n` linked after the last page `ℓ` of a chain extends it. -/
theorem Chain.snoc {pg pg' : Int → DataPage} {n ℓ : Int} (hn : n ≠ -1) (hnc : (pg' n).curPage = n)
    (hnn : (pg' n).nextPage = -1) (hℓ : (pg' ℓ).curPage = (pg ℓ).curPage ∧ (pg' ℓ).nextPage = n) :
    ∀ {p : Int} (ps : List Int), Chain pg p (ps ++ [ℓ]) →
      (∀ q ∈ ps, (pg' q).curPage = (pg q).curPage ∧ (pg' q).nextPage = (pg q).nextPage) →
      Chain pg' p (ps ++ [ℓ, n])
  | p, [], h, _ => by
    obtain ⟨hpℓ, hp, hc, -⟩ := h.of_cons
    subst hpℓ
    have hn' : Chain pg' n [n] := .cons hn hnc (hnn ▸ .nil)
    exact .cons hp (hℓ.1.trans hc) (hℓ.2 ▸ hn')
  | p, q :: ps, h, hs => by
    obtain ⟨hpq, hp, hc, hch⟩ := h.of_cons
    subst hpq
    obtain ⟨h1, h2⟩ := hs p (List.mem_cons_self _ _)
    exact .cons hp (h1.trans hc) (h2 ▸ snoc hn hnc hnn hℓ ps hch fun r hr => hs r (List.mem_cons_of_mem _ hr))

namespace FileImage

variable {L L' : Int → Img} {hdrNo next : Int} {ps : List Int} {recs : List (RID × Record)}

/-- Only the header and the data pages matter. -/
theorem congr (h : FileImage L hdrNo next ps recs) (hL : ∀ q, q = hdrNo ∨ q ∈ ps → L' q = L q) :
    FileImage L' hdrNo next ps recs := by
  have hh := hL hdrNo (.inl rfl)
  have hp : ∀ q ∈ ps, L' q = L q := fun q hq => hL q (.inr hq)
  refine ⟨?_, hh ▸ h.last, hh ▸ h.pageCnt, hh ▸ h.recCnt, ?_, fun q hq => hp q hq ▸ h.full q hq, h.below,
    h.hdr_pos, h.hdr_below, h.hdr_off⟩
  · rw [hh]; exact h.chain.congr fun q hq => by rw [hp q hq]; exact ⟨rfl, rfl⟩
  · rw [← h.records]; exact chainRecords_congr fun q hq => by rw [hp q hq]

/-- Only pages below `next` are used, so any larger bound holds too. -/
theorem mono_next (h : FileImage L hdrNo next ps recs) {next' : Int} (hn : next ≤ next') :
    FileImage L hdrNo next' ps recs :=
  { h with below := fun q hq => Int.lt_of_lt_of_le (h.below q hq) hn,
           hdr_below := Int.lt_of_lt_of_le h.hdr_below hn }

/-- No two records of a heap file share a RID. -/
theorem rids_nodup (h : FileImage L hdrNo next ps recs) : (recs.map Prod.fst).Nodup :=
  h.records ▸ chainRecords_nodup _ h.chain.nodup

/-- `createHeapFile`'s pages: header `hdrNo` with one data page `n`, empty. -/
theorem formatted {n : Int} (hh : 0 < hdrNo) (hn : n ≠ -1) (hlt : hdrNo < n) (hL : L hdrNo = .hdr ⟨1, 0, n, n⟩)
    (hd : L n = .data (DataPage.init n)) : FileImage L hdrNo (n + 1) [n] [] := by
  refine ⟨?_, by rw [hL]; rfl, by rw [hL]; rfl, by rw [hL]; rfl, by simp [hd, DataPage.init, DataPage.live,
    DataPage.liveFrom], by simp [hd, DataPage.init], fun q hq => by rw [List.mem_singleton.1 hq]; omega, hh,
    by omega, by simp; omega⟩
  rw [hL]
  show Chain _ n [n]
  exact .cons hn (by rw [hd]; rfl) (by rw [hd]; exact .nil)

/-- The page `ℓ` is the last data page. -/
theorem last_split (h : FileImage L hdrNo next ps recs) {ℓ : Int} (hℓ : ps.getLast? = some ℓ) :
    ∃ init, ps = init ++ [ℓ] ∧ ℓ ∉ init := by
  obtain ⟨init, rfl⟩ := List.getLast?_eq_some_iff.1 hℓ
  exact ⟨init, rfl, fun hm => (List.nodup_append.1 h.chain.nodup).2.2 hm (List.mem_singleton_self ℓ)⟩

/-- A record inserted on the last page `ℓ`, with `recCnt` incremented, is
appended to the file, under a RID that no record has. -/
theorem insertLast (h : FileImage L hdrNo next ps recs) {ℓ : Int} (hℓ : ps.getLast? = some ℓ) {G : Geom}
    {rec : Record} {P' : DataPage} {rid : RID} (hins : (L ℓ).toPage.insertRecord G rec = .ok (P', rid))
    (hpage : ∀ q ∈ ps, (L' q).toPage = if q = ℓ then P' else (L q).toPage)
    (hhdr : (L' hdrNo).toHdr = { (L hdrNo).toHdr with recCnt := (L hdrNo).toHdr.recCnt + 1 }) :
    FileImage L' hdrNo next ps (recs ++ [(rid, rec)]) ∧ rid ∉ recs.map Prod.fst := by
  obtain ⟨init, rfl, hℓi⟩ := h.last_split hℓ
  have hmem : ℓ ∈ init ++ [ℓ] := List.mem_append_right _ (List.mem_singleton_self ℓ)
  have hcur := h.chain.curPage_of_mem ℓ hmem
  rcases (DataPage.insertRecord_of_full (h.full ℓ hmem) : (L ℓ).toPage.insertRecord G rec = _ ∨ _) with hno | hok
  · rw [hno] at hins; cases hins
  rw [hok] at hins
  simp only [Except.ok.injEq, Prod.mk.injEq] at hins
  obtain ⟨rfl, rfl⟩ := hins
  have hinit : ∀ q ∈ init, (L' q).toPage = (L q).toPage := fun q hq => by
    rw [hpage q (List.mem_append_left _ hq), if_neg fun (e : q = ℓ) => hℓi (e ▸ hq)]
  have hlast : (L' ℓ).toPage = { (L ℓ).toPage with slots := (L ℓ).toPage.slots ++ [some rec] } := by
    rw [hpage ℓ hmem, if_pos rfl]
  refine ⟨⟨?_, by rw [hhdr]; exact h.last, by rw [hhdr]; exact h.pageCnt, ?_, ?_, fun q hq x hx => ?_, h.below,
    h.hdr_pos, h.hdr_below, h.hdr_off⟩, fun hm => ?_⟩
  · rw [hhdr]
    refine h.chain.congr fun q hq => ?_
    rw [hpage q hq]; split
    · subst q; exact ⟨rfl, rfl⟩
    · exact ⟨rfl, rfl⟩
  · rw [hhdr, h.recCnt]; simp
  · have hlive : (L' ℓ).toPage.live = (L ℓ).toPage.live ++ [((L ℓ).toPage.slots.length + 1, rec)] := by
      rw [hlast, DataPage.live_append]
    rw [← h.records, chainRecords_append, chainRecords_append, chainRecords_congr fun q hq => by rw [hinit q hq]]
    simp [hlive, hcur]
  · rcases List.mem_append.1 hq with hq | hq
    · rw [hinit q hq] at hx; exact h.full q (List.mem_append_left _ hq) x hx
    · rw [List.mem_singleton.1 hq, hlast] at hx
      rcases List.mem_append.1 hx with hx | hx
      · exact h.full ℓ hmem x hx
      · rw [List.mem_singleton.1 hx]; rfl
  · obtain ⟨x, hx, hxe⟩ := List.mem_map.1 hm
    rw [← h.records] at hx
    obtain ⟨q, hq, e, he, rfl⟩ := mem_chainRecords.1 hx
    simp only [hcur, RID.mk.injEq] at hxe
    obtain ⟨rfl, he1⟩ := hxe
    have := DataPage.le_length_of_mem_live he
    omega

/-- An empty page `next` linked after the last page `ℓ`, with the header's
`lastPage` and `pageCnt` updated, extends the file with no records. -/
theorem link (h : FileImage L hdrNo next ps recs) {ℓ : Int} (hℓ : ps.getLast? = some ℓ)
    (hnew : (L' next).toPage = DataPage.init next)
    (hlast : (L' ℓ).toPage = { (L ℓ).toPage with nextPage := next })
    (hrest : ∀ q ∈ ps, q ≠ ℓ → L' q = L q)
    (hhdr : (L' hdrNo).toHdr = { (L hdrNo).toHdr with pageCnt := (L hdrNo).toHdr.pageCnt + 1, lastPage := next }) :
    FileImage L' hdrNo (next + 1) (ps ++ [next]) recs := by
  obtain ⟨init, rfl, hℓi⟩ := h.last_split hℓ
  have hinit : ∀ q ∈ init, L' q = L q := fun q hq =>
    hrest q (List.mem_append_left _ hq) fun (e : q = ℓ) => hℓi (e ▸ hq)
  have hnn : next ≠ -1 := by have := h.hdr_below; have := h.hdr_pos; omega
  refine ⟨?_, by rw [hhdr]; simp, ?_, by rw [hhdr]; exact h.recCnt, ?_, fun q hq x hx => ?_, fun q hq => ?_,
    h.hdr_pos, by have := h.hdr_below; omega, ?_⟩
  · rw [hhdr, List.append_assoc, List.singleton_append]
    exact h.chain.snoc hnn (by rw [hnew]; rfl) (by rw [hnew]; rfl) (by rw [hlast]; exact ⟨rfl, rfl⟩) init
      fun q hq => by rw [hinit q hq]; exact ⟨rfl, rfl⟩
  · rw [hhdr, h.pageCnt]; simp only [List.length_append, List.length_singleton]; push_cast; omega
  · rw [← h.records, chainRecords_append, chainRecords_append, chainRecords_append,
      chainRecords_congr fun q hq => by rw [hinit q hq]]
    simp [hlast, hnew, DataPage.init, DataPage.live, DataPage.liveFrom]
  · rcases List.mem_append.1 hq with hq | hq
    · by_cases hqℓ : q = ℓ
      · subst hqℓ; rw [hlast] at hx; exact h.full _ hq x hx
      · rw [hrest q hq hqℓ] at hx; exact h.full q hq x hx
    · rw [List.mem_singleton.1 hq, hnew] at hx; cases hx
  · rcases List.mem_append.1 hq with hq | hq
    · have := h.below q hq; omega
    · rw [List.mem_singleton.1 hq]; omega
  · intro hm
    rcases List.mem_append.1 hm with hm | hm
    · exact h.hdr_off hm
    · have := h.hdr_below; rw [List.mem_singleton.1 hm] at this; omega

end FileImage

end Minirel
