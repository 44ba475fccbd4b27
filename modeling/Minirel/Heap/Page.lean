import Minirel.Buffer.Desc

/-!
# Records, slotted data pages and the header page

The heap file (`src/stage4/heapfile.C`) works on pages through the slotted-page
class `Page` (`page.h`, `page.C`) and the header layout `FileHdrPage`
(`heapfile.h`); neither is in the repository, so both are modelled from the spec
(§3 "Page", "Record Identifier", "Heap File Header"):

* a data page knows its own number and the next page of the file, and has a
  slot directory whose slots (numbered from 1) are live or empty;
* `insertRecord` reuses the first empty slot or appends one, and fails with
  NOSPACE when the records and the slot directory would not fit in the
  `cap = PAGESIZE − DPFIXED` bytes a page offers (the first slot is part of
  `DPFIXED`, so a page without slots takes any record of at most `cap` bytes);
* `firstRecord`/`nextRecord` walk the live slots in slot order and end with
  NORECORDS/ENDOFPAGE; `nextRecord` only reads the slot number of the RID it
  is given, so it is defined from a slot that was just freed.

A frame of the buffer pool holds an `Img`: a header page, a data page, or bytes
the heap file has not formatted (`raw`). `FileHdrPage.fileName` is left out: no
modelled function reads it.

**Results.**
* `nextLive_eq`: the walk returns the first live slot after the given one, read
  off `live`, the page's live slots in order.
* `live_filter_next`: after stepping to that slot, the live slots still ahead
  are the rest of the list: the walk meets every live slot once, in order.
* `insertRecord_append`, `live_append`: on a page without empty slots a record
  goes into a new last slot, and becomes the last live record.
* `live_deleteRecord`: freeing a slot drops exactly that slot from the live
  slots.
* `Chain.nodup`, `chainRecords_nodup`: a chain visits each page once, so the
  RIDs of its live records are pairwise distinct.
-/
namespace Minirel

/-- A record's bytes; `rec.length` is their number. -/
structure Record where
  data : List UInt8
  deriving DecidableEq, Repr

def Record.length (r : Record) : Nat := r.data.length

/-- `(pageNo, slotNo)`. -/
structure RID where
  pageNo : Int
  slotNo : Int
  deriving DecidableEq, Repr

/-- `NULLRID`: no record. -/
def NULLRID : RID := ⟨-1, -1⟩

/-- Modelled from the spec: the page layer's sizes. `cap` is `PAGESIZE − DPFIXED`;
every slot after the first costs `slotSize` bytes of it. -/
structure Geom where
  cap : Nat
  slotSize : Nat
  deriving DecidableEq, Repr

/-- Modelled from the spec: a slotted data page. Slot `n` is `slots[n - 1]`. -/
structure DataPage where
  curPage : Int
  nextPage : Int
  slots : List (Option Record)
  deriving DecidableEq, Repr

namespace DataPage

/-- `Page::init(pageNo)`: no slots, no next page. -/
def init (pageNo : Int) : DataPage := ⟨pageNo, -1, []⟩

/-- Slot `slotNo`, when it holds a record. -/
def slot (p : DataPage) (slotNo : Int) : Option Record :=
  if 1 ≤ slotNo then (p.slots[(slotNo - 1).toNat]?).join else none

/-- Bytes taken by the records and by the slots after the first. -/
def used (G : Geom) (p : DataPage) : Nat :=
  (p.slots.map fun s => (s.map Record.length).getD 0).sum + G.slotSize * (p.slots.length - 1)

/-- `Page::insertRecord`: the first empty slot, else a new last slot. -/
def insertRecord (G : Geom) (p : DataPage) (rec : Record) : Except Status (DataPage × RID) :=
  match p.slots.findIdx? Option.isNone with
  | some i =>
    if p.used G + rec.length ≤ G.cap then
      .ok ({ p with slots := p.slots.set i (some rec) }, ⟨p.curPage, i + 1⟩)
    else .error .NOSPACE
  | none =>
    if p.used G + rec.length + (if p.slots = [] then 0 else G.slotSize) ≤ G.cap then
      .ok ({ p with slots := p.slots ++ [some rec] }, ⟨p.curPage, p.slots.length + 1⟩)
    else .error .NOSPACE

/-- `Page::getRecord`: the record in the RID's slot. -/
def getRecord (p : DataPage) (rid : RID) : Except Status Record :=
  match p.slot rid.slotNo with
  | some r => .ok r
  | none => .error .BADRID

/-- `Page::deleteRecord`: empties the RID's slot. -/
def deleteRecord (p : DataPage) (rid : RID) : Except Status DataPage :=
  match p.slot rid.slotNo with
  | some _ => .ok { p with slots := p.slots.set (rid.slotNo - 1).toNat none }
  | none => .error .BADRID

/-- The first live slot numbered above `k`, when `slots` starts at slot `n`. -/
def nextLive : List (Option Record) → Nat → Int → Option Nat
  | [], _, _ => none
  | s :: ss, n, k => if s.isSome ∧ k < n then some n else nextLive ss (n + 1) k

/-- `Page::firstRecord`. -/
def firstRecord (p : DataPage) : Except Status RID :=
  match nextLive p.slots 1 0 with
  | some n => .ok ⟨p.curPage, n⟩
  | none => .error .NORECORDS

/-- `Page::nextRecord(curRid, nextRid)`: reads `curRid.slotNo` only. -/
def nextRecord (p : DataPage) (cur : RID) : Except Status RID :=
  match nextLive p.slots 1 cur.slotNo with
  | some n => .ok ⟨p.curPage, n⟩
  | none => .error .ENDOFPAGE

/-- The live slots of `slots`, numbered from `n`, with their records. -/
def liveFrom : List (Option Record) → Nat → List (Nat × Record)
  | [], _ => []
  | none :: ss, n => liveFrom ss (n + 1)
  | some r :: ss, n => (n, r) :: liveFrom ss (n + 1)

/-- The page's live slots in slot order. -/
def live (p : DataPage) : List (Nat × Record) := liveFrom p.slots 1

/-! ## The walk over live slots -/

/-- A live entry numbered from `n` sits at its place in `slots`. -/
theorem liveFrom_getElem : ∀ (ss : List (Option Record)) (n : Nat), ∀ e ∈ liveFrom ss n,
    n ≤ e.1 ∧ ss[e.1 - n]? = some (some e.2)
  | [], _, _, h => by simp [liveFrom] at h
  | none :: ss, n, e, h => by
    obtain ⟨h1, h2⟩ := liveFrom_getElem ss (n + 1) e h
    refine ⟨by omega, ?_⟩
    rw [show e.1 - n = e.1 - (n + 1) + 1 by omega]; simpa using h2
  | some r :: ss, n, e, h => by
    rcases List.mem_cons.1 h with rfl | h
    · simp
    · obtain ⟨h1, h2⟩ := liveFrom_getElem ss (n + 1) e h
      refine ⟨by omega, ?_⟩
      rw [show e.1 - n = e.1 - (n + 1) + 1 by omega]; simpa using h2

theorem liveFrom_sorted : ∀ (ss : List (Option Record)) (n : Nat),
    (liveFrom ss n).Pairwise (fun a b => a.1 < b.1)
  | [], _ => .nil
  | none :: ss, n => liveFrom_sorted ss (n + 1)
  | some _ :: ss, n =>
    .cons (fun e he => (liveFrom_getElem ss (n + 1) e he).1) (liveFrom_sorted ss (n + 1))

theorem nextLive_eq : ∀ (ss : List (Option Record)) (n : Nat) (k : Int),
    nextLive ss n k = (((liveFrom ss n).filter fun e => k < e.1).head?).map Prod.fst
  | [], _, _ => rfl
  | none :: ss, n, k => by simp [nextLive, liveFrom, nextLive_eq ss (n + 1) k]
  | some r :: ss, n, k => by
    by_cases hk : k < n
    · simp [nextLive, liveFrom, hk]
    · simp [nextLive, liveFrom, hk, nextLive_eq ss (n + 1) k]

/-- Once the walk is at slot `e.1`, the slots ahead are those after `e` in `live`. -/
theorem live_filter_next {L : List (Nat × Record)} (hs : L.Pairwise (fun a b => a.1 < b.1)) {k : Int}
    {e : Nat × Record} {R : List (Nat × Record)} (h : L.filter (fun e => k < e.1) = e :: R) :
    L.filter (fun e' => (e.1 : Int) < e'.1) = R := by
  induction L with
  | nil => simp at h
  | cons a L ih =>
    rw [List.pairwise_cons] at hs
    by_cases ha : k < a.1
    · rw [List.filter_cons_of_pos (by simpa using ha), List.cons.injEq] at h
      obtain ⟨rfl, rfl⟩ := h
      rw [List.filter_cons_of_neg (by simp), List.filter_eq_self.2 fun b hb => by simpa using hs.1 b hb,
        List.filter_eq_self.2 fun b hb => by have := hs.1 b hb; simp only [decide_eq_true_eq]; omega]
    · rw [List.filter_cons_of_neg (by simpa using ha)] at h
      have hea : ¬ (e.1 : Int) < a.1 := by
        have := hs.1 e (List.mem_filter.1 (h ▸ List.mem_cons_self e R)).1; omega
      rw [List.filter_cons_of_neg (by simpa using hea)]
      exact ih hs.2 h

theorem slot_of_mem_live {p : DataPage} {e : Nat × Record} (h : e ∈ p.live) : p.slot e.1 = some e.2 := by
  obtain ⟨h1, h2⟩ := liveFrom_getElem p.slots 1 e h
  have h1' : (1 : Int) ≤ e.1 := by omega
  have : ((e.1 : Int) - 1).toNat = e.1 - 1 := by omega
  simp [slot, h1', this, h2]

/-! ## Inserting and deleting -/

theorem liveFrom_append : ∀ (ss ts : List (Option Record)) (n : Nat),
    liveFrom (ss ++ ts) n = liveFrom ss n ++ liveFrom ts (n + ss.length)
  | [], ts, n => rfl
  | none :: ss, ts, n => by
    show liveFrom (ss ++ ts) (n + 1) = liveFrom ss (n + 1) ++ liveFrom ts (n + (ss.length + 1))
    rw [liveFrom_append ss ts (n + 1)]; congr 2; omega
  | some r :: ss, ts, n => by
    show (n, r) :: liveFrom (ss ++ ts) (n + 1) =
      (n, r) :: (liveFrom ss (n + 1) ++ liveFrom ts (n + (ss.length + 1)))
    rw [liveFrom_append ss ts (n + 1)]; congr 3; omega

/-- Emptying the slot at index `i` drops exactly that slot from the live list. -/
theorem liveFrom_set_none : ∀ (ss : List (Option Record)) (n i : Nat),
    liveFrom (ss.set i none) n = (liveFrom ss n).filter fun e => e.1 ≠ n + i
  | [], _, _ => rfl
  | s :: ss, n, 0 => by
    cases s <;> simp only [List.set_cons_zero, liveFrom, List.filter_cons, ne_eq, Nat.add_zero,
      not_true_eq_false, decide_False] <;>
    exact (List.filter_eq_self.2 fun e he => by
      have := (liveFrom_getElem ss (n + 1) e he).1; simp only [decide_eq_true_eq]; omega).symm
  | s :: ss, n, i + 1 => by
    have ih := liveFrom_set_none ss (n + 1) i
    rw [show n + 1 + i = n + (i + 1) by omega] at ih
    cases s <;> simp [liveFrom, ih]

theorem insertRecord_append {G : Geom} {p : DataPage} {rec : Record} (hfull : ∀ s ∈ p.slots, s.isSome)
    (hfit : p.used G + rec.length + (if p.slots = [] then 0 else G.slotSize) ≤ G.cap) :
    p.insertRecord G rec = .ok ({ p with slots := p.slots ++ [some rec] }, ⟨p.curPage, p.slots.length + 1⟩) := by
  have : p.slots.findIdx? Option.isNone = none :=
    List.findIdx?_eq_none_iff.2 fun s hs => by
      cases s with
      | none => exact absurd (hfull _ hs) (by simp)
      | some => rfl
  simp [insertRecord, this, hfit]

/-- On a page without empty slots an insert appends a slot or fails with NOSPACE. -/
theorem insertRecord_of_full {G : Geom} {p : DataPage} {rec : Record} (hfull : ∀ s ∈ p.slots, s.isSome) :
    p.insertRecord G rec = .error .NOSPACE ∨
      p.insertRecord G rec = .ok ({ p with slots := p.slots ++ [some rec] }, ⟨p.curPage, p.slots.length + 1⟩) := by
  by_cases hfit : p.used G + rec.length + (if p.slots = [] then 0 else G.slotSize) ≤ G.cap
  · exact .inr (insertRecord_append hfull hfit)
  · have : p.slots.findIdx? Option.isNone = none :=
      List.findIdx?_eq_none_iff.2 fun s hs => by
        cases s with
        | none => exact absurd (hfull _ hs) (by simp)
        | some => rfl
    exact .inl (by simp [insertRecord, this, hfit])

/-- A record that fits in an empty page goes into its slot 1. -/
theorem insertRecord_init {G : Geom} {rec : Record} (n : Int) (h : rec.length ≤ G.cap) :
    (init n).insertRecord G rec = .ok (⟨n, -1, [some rec]⟩, ⟨n, 1⟩) := by
  simp [insertRecord, init, used, h]

/-- A live slot is one of the page's slots. -/
theorem le_length_of_mem_live {p : DataPage} {e : Nat × Record} (h : e ∈ p.live) : e.1 ≤ p.slots.length := by
  obtain ⟨h1, h2⟩ := liveFrom_getElem p.slots 1 e h
  have := (List.getElem?_eq_some_iff.1 h2).1
  omega

theorem live_append (p : DataPage) (rec : Record) :
    live { p with slots := p.slots ++ [some rec] } = p.live ++ [(p.slots.length + 1, rec)] := by
  simp [live, liveFrom_append, liveFrom, Nat.add_comm]

theorem deleteRecord_eq_ok {p p' : DataPage} {rid : RID} (h : p.deleteRecord rid = .ok p') :
    ∃ r, p.slot rid.slotNo = some r ∧ p' = { p with slots := p.slots.set (rid.slotNo - 1).toNat none } := by
  unfold deleteRecord at h; split at h
  · cases h; exact ⟨_, ‹_›, rfl⟩
  · cases h

/-- Deleting the record in slot `rid.slotNo` removes it from the live list. -/
theorem live_deleteRecord {p p' : DataPage} {rid : RID} (h : p.deleteRecord rid = .ok p') :
    p'.live = p.live.filter fun e => (e.1 : Int) ≠ rid.slotNo := by
  obtain ⟨r, hs, rfl⟩ := deleteRecord_eq_ok h
  have h1 : 1 ≤ rid.slotNo := by unfold slot at hs; split at hs <;> simp_all
  simp only [live, liveFrom_set_none]
  congr 1; funext e; simp only [ne_eq, decide_eq_decide]; omega

end DataPage

/-! ## Chains of data pages -/

/-- Following `nextPage` from `p` visits the data pages `ps`, each of which knows
its own number, and then reaches -1. A chain is finite, so it has no cycle. -/
inductive Chain (pg : Int → DataPage) : Int → List Int → Prop
  | nil : Chain pg (-1) []
  | cons {p : Int} {ps : List Int} : p ≠ -1 → (pg p).curPage = p → Chain pg (pg p).nextPage ps →
      Chain pg p (p :: ps)

/-- The live records of the pages `ps`, in chain and slot order, with their RIDs. -/
def chainRecords (pg : Int → DataPage) (ps : List Int) : List (RID × Record) :=
  ps.flatMap fun q => (pg q).live.map fun e => (⟨q, e.1⟩, e.2)

@[simp] theorem chainRecords_nil (pg : Int → DataPage) : chainRecords pg [] = [] := rfl

@[simp] theorem chainRecords_cons (pg : Int → DataPage) (q : Int) (qs : List Int) :
    chainRecords pg (q :: qs) = (pg q).live.map (fun e => (⟨q, e.1⟩, e.2)) ++ chainRecords pg qs := rfl

/-- Every live slot is numbered from 1. -/
theorem DataPage.live_filter_pos (p : DataPage) : p.live.filter (fun e => (0 : Int) < e.1) = p.live :=
  List.filter_eq_self.2 fun e he => by
    have := (DataPage.liveFrom_getElem p.slots 1 e he).1; simp only [decide_eq_true_eq]; omega

namespace Chain

variable {pg : Int → DataPage}

theorem eq_neg_one {p : Int} (h : Chain pg p []) : p = -1 := by cases h; rfl

theorem of_cons {p q : Int} {qs : List Int} (h : Chain pg p (q :: qs)) :
    p = q ∧ q ≠ -1 ∧ (pg q).curPage = q ∧ Chain pg (pg q).nextPage qs := by
  cases h with
  | cons hq hn hc => exact ⟨rfl, hq, hn, hc⟩

/-- The pages decide the chain from a page. -/
theorem unique : ∀ {p : Int} {ps ps' : List Int}, Chain pg p ps → Chain pg p ps' → ps = ps'
  | _, _, _, .nil, .nil => rfl
  | _, _, _, .nil, .cons h _ _ => absurd rfl h
  | _, _, _, .cons h _ _, .nil => absurd rfl h
  | _, _, _, .cons _ _ h₁, .cons _ _ h₂ => by rw [unique h₁ h₂]

/-- A page of a chain starts a chain no longer than it. -/
theorem suffix : ∀ {p q : Int} {ps : List Int}, Chain pg p ps → q ∈ ps →
    ∃ ps', Chain pg q ps' ∧ ps'.length ≤ ps.length
  | _, _, _, .nil, hq => absurd hq (List.not_mem_nil _)
  | _, _, _, .cons hp hn hc, hq => by
    rcases List.mem_cons.1 hq with rfl | hq
    · exact ⟨_, .cons hp hn hc, Nat.le_refl _⟩
    · obtain ⟨ps', h, hle⟩ := hc.suffix hq
      exact ⟨ps', h, Nat.le_succ_of_le hle⟩

/-- A chain is acyclic: it visits each page once. -/
theorem nodup : ∀ {p : Int} {ps : List Int}, Chain pg p ps → ps.Nodup
  | _, _, .nil => List.nodup_nil
  | _, _, .cons hp hn hc => List.nodup_cons.2 ⟨fun hm => by
      obtain ⟨ps', h, hle⟩ := hc.suffix hm
      rw [unique h (.cons hp hn hc), List.length_cons] at hle
      omega, hc.nodup⟩

end Chain

/-- The chain depends on the pages' numbers and links only. -/
theorem Chain.congr {pg pg' : Int → DataPage} :
    ∀ {p : Int} {ps : List Int},
      (∀ q ∈ ps, (pg' q).curPage = (pg q).curPage ∧ (pg' q).nextPage = (pg q).nextPage) →
      Chain pg p ps → Chain pg' p ps
  | _, _, _, .nil => .nil
  | _, _, h, .cons hp hn hc => by
    obtain ⟨h1, h2⟩ := h _ (List.mem_cons_self _ _)
    exact .cons hp (h1.trans hn) (h2 ▸ hc.congr fun q hq => h q (List.mem_cons_of_mem _ hq))

theorem chainRecords_congr {pg pg' : Int → DataPage} {ps : List Int} (h : ∀ q ∈ ps, (pg' q).live = (pg q).live) :
    chainRecords pg' ps = chainRecords pg ps := by
  unfold chainRecords
  exact List.flatMap_congr fun q hq => by rw [h q hq]

theorem chainRecords_append (pg : Int → DataPage) (ps qs : List Int) :
    chainRecords pg (ps ++ qs) = chainRecords pg ps ++ chainRecords pg qs := by
  simp [chainRecords, List.flatMap_append]

theorem mem_chainRecords {pg : Int → DataPage} {ps : List Int} {x : RID × Record} :
    x ∈ chainRecords pg ps ↔ ∃ q ∈ ps, ∃ e ∈ (pg q).live, x = (⟨q, e.1⟩, e.2) := by
  simp only [chainRecords, List.mem_flatMap, List.mem_map]
  exact exists_congr fun q => and_congr_right fun _ => exists_congr fun e => and_congr_right fun _ => eq_comm

theorem pageNo_mem_of_mem_chainRecords {pg : Int → DataPage} {ps : List Int} {x : RID × Record}
    (h : x ∈ chainRecords pg ps) : x.1.pageNo ∈ ps := by
  simp only [chainRecords, List.mem_flatMap, List.mem_map] at h
  obtain ⟨q, hq, e, -, rfl⟩ := h
  exact hq

/-- On pages that are pairwise distinct, no two live records share a RID. -/
theorem chainRecords_nodup (pg : Int → DataPage) : ∀ {ps : List Int}, ps.Nodup →
    ((chainRecords pg ps).map Prod.fst).Nodup
  | [], _ => List.nodup_nil
  | q :: qs, h => by
    rw [List.nodup_cons] at h
    rw [chainRecords_cons, List.map_append, List.nodup_append, List.map_map]
    refine ⟨List.pairwise_map.2 ((DataPage.liveFrom_sorted _ 1).imp fun hab heq => ?_),
      chainRecords_nodup pg h.2, fun x hx hy => ?_⟩
    · simp only [Function.comp, RID.mk.injEq, true_and] at heq; omega
    · obtain ⟨y, hy', rfl⟩ := List.mem_map.1 hy
      obtain ⟨e, -, he⟩ := List.mem_map.1 hx
      have hq : y.1.pageNo = q := by rw [← he]; rfl
      exact h.1 (hq ▸ pageNo_mem_of_mem_chainRecords hy')

/-- Modelled from the spec: the heap file's header page, without its name. -/
structure HdrPage where
  pageCnt : Int
  recCnt : Int
  firstPage : Int
  lastPage : Int
  deriving DecidableEq, Repr

/-- What `memset(hdrPage, 0, sizeof(FileHdrPage))` leaves. -/
def HdrPage.zero : HdrPage := ⟨0, 0, 0, 0⟩

/-- The contents of a page frame: bytes the heap file never formatted, a
header page, or a data page. -/
inductive Img where
  | raw
  | hdr (h : HdrPage)
  | data (p : DataPage)
  deriving DecidableEq, Repr, Inhabited

namespace Img

/-- The frame read as a `FileHdrPage`; bytes of another layout read as zeros. -/
def toHdr : Img → HdrPage
  | hdr h => h
  | _ => HdrPage.zero

/-- The frame read as a `Page`; bytes of another layout read as a page without slots. -/
def toPage : Img → DataPage
  | data p => p
  | _ => ⟨0, -1, []⟩

@[simp] theorem toHdr_hdr (h : HdrPage) : (hdr h).toHdr = h := rfl
@[simp] theorem toPage_data (p : DataPage) : (data p).toPage = p := rfl

end Img

end Minirel
