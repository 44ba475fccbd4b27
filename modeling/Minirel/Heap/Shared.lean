import Minirel.Heap.InsertRun
import Minirel.Heap.ScanRun

/-!
# A scan and an inserter on two files of one pool

`ScanSelect` keeps a `HeapFileScan` open on the input file `fin` and an
`InsertFileScan` open on the result file `fout`, and calls them in turn. Each
handle alone is described by its session, `Reading` or `Writing`, begun in a
world where it holds no pins. Between the calls of one handle the other one
holds pins and owes write-backs, so the session of each handle is begun, at
each of its turns, in the present world with the other handle's pins taken off
and the frames the other handle wrote marked dirty (`World.relieve`). That world
never existed; the pool's invariants hold of it all the same.

`Shared W₀ fin fout us sc ins wrote w` is what holds between two calls: the
pins are those of the start `W₀` plus the scan's `sc` and the inserter's `ins`,
the pages pinned at the start keep their frames, the input file's pages keep
their bytes, and the ghost owes only pages pinned at the start and pages of
`fout` the inserter wrote.

**Results.**
* `Shared.reading`, `Shared.writing`: from `Shared`, the scan's `Reading` and
  the inserter's `Writing` in the world relieved of the other handle.
* `Shared.of_reading`, `Shared.of_writing`: a run of either handle, described
  by its own session and making only calls on its own file's pages, keeps
  `Shared`, and leaves the other handle's pages in their frames.
* `Shared.rescan`: the scan's `Scanning`, moved to a session begun in the
  present world.
-/
namespace Minirel

open BufMgr

/-- The pool with the pins `held` taken off its frames and the frames of the
pages `wr` marked dirty. -/
def BufMgr.relieve {P : Type} (s : BufMgr P) (held : Key → Nat) (wr : Key → Bool) : BufMgr P :=
  { s with
    bufTable := fun u =>
      if (s.bufTable u).valid then
        { s.bufTable u with
          pinCnt := (s.bufTable u).pinCnt - held (s.bufTable u).key
          dirty := (s.bufTable u).dirty || wr (s.bufTable u).key }
      else s.bufTable u }

/-- The world with another handle's pins `held` and its written pages `wr` taken off the pool. -/
def World.relieve (w : World) (held : Key → Nat) (wr : Key → Bool) : World :=
  { w with pool := w.pool.relieve held wr }

/-- The pages of `fout` marked in `wrote`. -/
def wroteKey (fout : FileId) (wrote : Int → Bool) (k : Key) : Bool := k.1 == some fout && wrote k.2

namespace BufMgr

variable {P : Type} {s : BufMgr P} {held : Key → Nat} {wr : Key → Bool}

@[simp] theorem relieve_hashTable : (s.relieve held wr).hashTable = s.hashTable := rfl
@[simp] theorem relieve_bufPool : (s.relieve held wr).bufPool = s.bufPool := rfl
@[simp] theorem relieve_numBufs : (s.relieve held wr).numBufs = s.numBufs := rfl

theorem relieve_valid (u : Nat) : ((s.relieve held wr).bufTable u).valid = (s.bufTable u).valid := by
  dsimp only [relieve]; split <;> rfl

theorem relieve_key (u : Nat) : ((s.relieve held wr).bufTable u).key = (s.bufTable u).key := by
  dsimp only [relieve]; split <;> rfl

theorem relieve_of_valid {u : Nat} (hv : (s.bufTable u).valid = true) :
    (s.relieve held wr).bufTable u = { s.bufTable u with
      pinCnt := (s.bufTable u).pinCnt - held (s.bufTable u).key
      dirty := (s.bufTable u).dirty || wr (s.bufTable u).key } := by
  simp [relieve, hv]

theorem Inv.relieve (hi : Inv s) : Inv (s.relieve held wr) where
  hand_lt := hi.hand_lt
  hash_iff k i := by simpa only [relieve_valid, relieve_key] using hi.hash_iff k i
  invalid_clear j hj hv := by
    rw [relieve_valid] at hv
    simpa [BufMgr.relieve, hv] using hi.invalid_clear j hj hv

theorem pinOf_relieve (hi : Inv s) (k : Key) : pinOf (s.relieve held wr) k = pinOf s k - held k := by
  cases hf : s.hashTable.find k with
  | none => simp [pinOf, hf]
  | some i =>
    obtain ⟨j, rfl, -, hv, hk⟩ := (hi.hash_iff k i).1 hf
    rw [pinOf_of_find hf, pinOf_of_find (s := s.relieve held wr) hf, relieve_of_valid hv, hk]

theorem logical_relieve : logical (s.relieve held wr) = logical s := rfl

theorem relieve_zero (s : BufMgr P) : s.relieve (fun _ => 0) (fun _ => false) = s := by
  cases s
  simp only [BufMgr.relieve, Nat.sub_zero, Bool.or_false, BufMgr.mk.injEq, and_true, true_and]
  funext u
  split <;> rfl

end BufMgr

theorem World.relieve_zero (w : World) {held : Key → Nat} {wr : Key → Bool} (hh : ∀ k, held k = 0)
    (hw : ∀ k, wr k = false) : w.relieve held wr = w := by
  rw [World.relieve, funext hh, funext hw, BufMgr.relieve_zero]

/-- The `HeapFile` constructor reads pages of the file it opens and nothing else. -/
theorem HeapFile.new_calls {w : World} {name : String} {f : FileId} (hopen : w.db.openFile name = .ok f) :
    FileCalls f w (HeapFile.new w name).2.2 := by
  simp only [HeapFile.new, hopen]
  split
  · next hr => exact FileCalls.readPage hr
  · next hr =>
    split
    · next hr' => exact (FileCalls.readPage hr).trans (FileCalls.readPage hr')
    · next hr' => exact (FileCalls.readPage hr).trans (FileCalls.readPage hr')

/-! ## Frames free of a handle's pages -/

/-- Leaving out of `us` the frames that hold one of the pages `ks` keeps all of
them but at most `ks.length`. -/
theorem BufMgr.frames_avoiding {P : Type} {s : BufMgr P} (hi : Inv s) {us : List Nat} (hnd : us.Nodup)
    (hus : ∀ u ∈ us, u < s.numBufs) (ks : List Key) :
    ∃ us' : List Nat, us'.Nodup ∧ us.length ≤ us'.length + ks.length ∧
      ∀ u ∈ us', u ∈ us ∧ ((s.bufTable u).valid = true → (s.bufTable u).key ∉ ks) := by
  let p : Nat → Bool := fun u => (s.bufTable u).valid && decide ((s.bufTable u).key ∈ ks)
  refine ⟨us.filter (fun u => !p u), hnd.filter _, ?_, fun u hu => ?_⟩
  · have hin : ((us.filter p).map fun u => (s.bufTable u).key).Nodup :=
      (hnd.filter _).map_on fun u hu v hv h => by
        simp only [List.mem_filter, p, Bool.and_eq_true, decide_eq_true_eq] at hu hv
        exact hi.frame_unique (hus u hu.1) (hus v hv.1) hu.2.1 hv.2.1 h
    have hle := (List.subperm_of_subset hin fun k hk => by
      obtain ⟨u, hu, rfl⟩ := List.mem_map.1 hk
      simp only [List.mem_filter, p, Bool.and_eq_true, decide_eq_true_eq] at hu
      exact hu.2.2).length_le
    rw [List.length_map] at hle
    have := List.length_eq_length_filter_add p (l := us)
    omega
  · simp only [List.mem_filter, p, Bool.not_eq_true', Bool.and_eq_false_iff, decide_eq_false_iff_not] at hu
    exact ⟨hu.1, fun hv => hu.2.resolve_left (by simp [hv])⟩

/-! ## What the calls on one file leave of the other -/

/-- The ghost in which every page of a file other than `fin` is fresh: `Clean`
for it says that a clean frame of a page of `fin` holds the page's disk bytes. -/
def finGhost (fin : FileId) : Ghost := ⟨fun _ => false, fun k => k.1 != some fin⟩

variable {fin fout : FileId}

theorem BufMgr.Clean.finGhost {g : Ghost} {s : BufMgr Img} (hc : Clean g s)
    (hg : ∀ k : Key, k.1 = some fin → g.owed k = false ∧ g.fresh k = false) : Clean (finGhost fin) s :=
  fun k j hf hd _ hn => by
    have hk : k.1 = some fin := by simpa [Minirel.finGhost] using hn
    exact hc k j hf hd (hg k hk).1 (hg k hk).2

/-- A call on a page of `fout` leaves the ghost of every page of `fin` as it was. -/
theorem Ghost.after_of_other (hne : fin ≠ fout) (g : Ghost) (io : FileAnswers) (st : Status) {c : Call}
    (hc : ∀ f p d, c = .unPinPage f p d → f = fout) (ha : ∀ f, c = .allocPage f → f = fout) {k : Key}
    (hk : k.1 = some fin) : (g.after io c st).owed k = g.owed k ∧ (g.after io c st).fresh k = g.fresh k := by
  have hkf : ∀ q, k ≠ (some fout, q) := fun q e => hne (Option.some.inj (hk.symm.trans (congrArg Prod.fst e)))
  unfold Ghost.after
  split
  · split
    · obtain rfl := hc _ _ _ rfl
      exact ⟨Function.update_noteq (hkf _) _ _, Function.update_noteq (hkf _) _ _⟩
    · obtain rfl := ha _ rfl
      exact ⟨rfl, Function.update_noteq (hkf _) _ _⟩
    · exact ⟨rfl, rfl⟩
  · exact ⟨rfl, rfl⟩

/-- A call on a page of `fout` keeps `ContentInv` for `finGhost fin` and the
bytes of every page of `fin`. -/
theorem finGhost_call (hne : fin ≠ fout) {s : BufMgr Img} (hc : ContentInv (s, finGhost fin)) {io : FileAnswers}
    (hrw : io.ReadWriteOk) (c : Call) (ha : Allowed (s, finGhost fin) c)
    (hcu : ∀ f p d, c = .unPinPage f p d → f = fout) (hca : ∀ f, c = .allocPage f → f = fout) :
    ContentInv ((c.run io s).2, finGhost fin) ∧
      ∀ q, logical (c.run io s).2 (some fin, q) = logical s (some fin, q) := by
  obtain ⟨h1, -, h3⟩ := run_content hc.inv hc.clean hc.owed hrw c ha
  have hk : ∀ q, ((finGhost fin).after io c (c.run io s).1).owed (some fin, q) = false ∧
      ((finGhost fin).after io c (c.run io s).1).fresh (some fin, q) = false := fun q => by
    rw [(Ghost.after_of_other hne _ io _ hcu hca rfl).1, (Ghost.after_of_other hne _ io _ hcu hca rfl).2]
    simp [Minirel.finGhost]
  refine ⟨⟨run_inv hc.inv hrw.write c, h1.finGhost fun k hkf => ?_, fun k h => by cases h⟩,
    fun q => h3 _ (hk q).2⟩
  obtain ⟨k1, k2⟩ := k
  simp only at hkf; subst hkf
  exact hk k2

/-- The input file as the inserter's calls leave it: clean frames of its pages
hold their disk bytes, its pages' bytes are `L`, and its first page is `c`. -/
def FinKept (fin : FileId) (io : FileAnswers) (c : Int) (L : Int → Img) (w : World) : Prop :=
  ContentInv (w.pool, finGhost fin) ∧ w.io = io ∧ w.db.first fin = c ∧ ∀ q, logical w.pool (some fin, q) = L q

theorem finKept_closed (hne : fin ≠ fout) {io : FileAnswers} (hrw : io.ReadWriteOk) (c : Int) (L : Int → Img) :
    FileClosed fout (FinKept fin io c L) where
  readPage w q := fun ⟨hc, hio, hfst, hL⟩ => by
    obtain ⟨h1, h2⟩ := finGhost_call hne hc (hio ▸ hrw) (.readPage fout q) trivial nofun nofun
    exact ⟨h1, hio, hfst, fun q' => (h2 q').trans (hL q')⟩
  unPinPage w q d := fun ⟨hc, hio, hfst, hL⟩ => by
    obtain ⟨h1, h2⟩ := finGhost_call hne hc (hio ▸ hrw) (.unPinPage fout q d)
      (by cases d <;> simp [Allowed, Minirel.finGhost]) (fun _ _ _ h => by cases h; rfl) nofun
    exact ⟨h1, hio, hfst, fun q' => (h2 q').trans (hL q')⟩
  allocPage w := fun ⟨hc, hio, hfst, hL⟩ => by
    have hrw' : w.answers.ReadWriteOk := ⟨(hio ▸ hrw).read, (hio ▸ hrw).write⟩
    obtain ⟨h1, h2⟩ := finGhost_call hne hc hrw' (.allocPage fout) trivial nofun fun _ h => by cases h; rfl
    refine ⟨h1, hio, ?_, fun q' => (h2 q').trans (hL q')⟩
    simp only [World.allocPage]
    split
    · simpa [Db.allocated, Function.update_noteq hne] using hfst
    · exact hfst
  setFrame w q j b hf := fun ⟨hc, hio, hfst, hL⟩ => by
    have hset : (w.setFrame j b).pool = { w.pool with bufPool := Function.update w.pool.bufPool j b } := by
      simp [World.setFrame]
    have hkq : ∀ q', (some fin, q') ≠ (some fout, q) := fun q' e => hne (Option.some.inj (congrArg Prod.fst e))
    refine ⟨hset ▸ ⟨hc.inv.pages _ _, (hc.clean.write hf b hc.inv).finGhost fun k hk => ?_,
      fun k h => by cases h⟩, hio, hfst, fun q' => ?_⟩
    · obtain ⟨k1, k2⟩ := k
      simp only at hk; subst hk
      simp [Function.update_noteq (hkq k2), Minirel.finGhost]
    · rw [hset, logical_write hf b hc.inv, if_neg (hkq q')]; exact hL q'

/-- The result file's pages from `c` on as the scan's calls leave them: not resident. -/
def Unmapped (fout : FileId) (io : FileAnswers) (c : Int) (w : World) : Prop :=
  Inv w.pool ∧ w.io = io ∧ w.db.next fout = c ∧ ∀ q, c ≤ q → w.pool.hashTable.find (some fout, q) = none

theorem unmapped_closed (hne : fin ≠ fout) {io : FileAnswers} (hrw : io.ReadWriteOk) (c : Int) :
    FileClosed fin (Unmapped fout io c) where
  readPage w q := fun ⟨hi, hio, hn, hf⟩ =>
    ⟨run_inv hi (hio ▸ hrw).write (.readPage fin q), hio, hn, fun q' hq' =>
      readPage_find_none hi (hio ▸ hrw) fin q (hf q' hq') fun e => hne (Option.some.inj (congrArg Prod.fst e)).symm⟩
  unPinPage w q d := fun ⟨hi, hio, hn, hf⟩ =>
    ⟨unPinPage_inv hi fin q d, hio, hn, fun q' hq' => by
      simpa only [World.unPinPage_some, unPinPage_hashTable hi] using hf q' hq'⟩
  allocPage w := fun ⟨hi, hio, hn, hf⟩ => by
    refine ⟨allocPage_inv w.answers hi fin, hio, ?_, fun q' hq' =>
      allocPage_find_none hi (hio ▸ hrw).write fin (hf q' hq') fun e => hne (Option.some.inj e).symm⟩
    simp only [World.allocPage]
    split
    · simpa [Db.allocated, Function.update_noteq hne.symm] using hn
    · exact hn
  setFrame w q j b _ := fun ⟨hi, hio, hn, hf⟩ => ⟨hi.pages _ _, hio, hn, hf⟩

/-! ## The scan's pins and its sessions -/

/-- The scan's pins: one on the header page `hdr`, and one on the current page
while `curPage` is set. -/
def scanHeld (hdr : Key) (f : FileId) (s : HeapFileScan) (k : Key) : Nat :=
  onePin hdr k + if s.curPage.isSome then onePin (some f, s.curPageNo) k else 0

theorem scanHeld_mem {hdr : Key} {f : FileId} {s : HeapFileScan} {k : Key} (h : 0 < scanHeld hdr f s k) :
    k ∈ [hdr, (some f, s.curPageNo)] := by
  unfold scanHeld onePin at h
  by_cases h₁ : k = hdr
  · exact h₁ ▸ List.mem_cons_self _ _
  · by_cases h₂ : k = (some f, s.curPageNo)
    · exact h₂ ▸ List.mem_cons_of_mem _ (List.mem_singleton_self _)
    · simp [h₁, h₂] at h

theorem HeapFile.held_file {h : HeapFile} {f : FileId} {k : Key} (hk : 0 < h.held f k) : k.1 = some f := by
  rcases List.mem_pair.1 (h.mem_of_held_pos f hk) with rfl | rfl <;> rfl

theorem scanHeld_file {f : FileId} {c : Int} {s : HeapFileScan} {k : Key} (h : 0 < scanHeld (some f, c) f s k) :
    k.1 = some f := by
  rcases List.mem_pair.1 (scanHeld_mem h) with rfl | rfl <;> rfl

section Scanning

variable {C C' : ScanCtx} {m : Nat} {rem : List (RID × Record)} {s : HeapFileScan} {w w' : World}

theorem Scanning.reading (h : Scanning C m rem s w) : Reading C.w₀ C.g C.u₁ C.u₂ (scanHeld C.hdrKey C.f s) w := by
  rcases h with ⟨-, hx⟩ | ⟨p, R, qs, h, -, -⟩
  · exact hx.reading.congr fun k => by simp [scanHeld, hx.curPage]
  · obtain ⟨j, hc, -⟩ := h.frame
    exact h.reading.congr fun k => by simp [scanHeld, ScanCtx.held, hc, h.curPageNo]

theorem Scanning.file (h : Scanning C m rem s w) : s.filePtr = some C.f := by
  rcases h with ⟨-, hx⟩ | ⟨p, R, qs, h, -, -⟩
  exacts [hx.file, h.file]

/-- A scan standing on the chain stands there in another session whose context
agrees on the file, its pages, the predicate and the header page, once the
scan's pages kept their frames. -/
theorem Scanning.rebase (h : Scanning C m rem s w) (hf : C'.f = C.f) (hpg : C'.pg = C.pg) (hk : C'.keep = C.keep)
    (hh : C'.hdrKey = C.hdrKey) (hR : Reading C'.w₀ C'.g C'.u₁ C'.u₂ (scanHeld C.hdrKey C.f s) w')
    (hkeep : Keeps (scanHeld C.hdrKey C.f s) w w') : Scanning C' m rem s w' := by
  have hm : C'.matching = C.matching := by
    funext p R qs; simp only [WalkCtx.matching, WalkCtx.stream, hpg, hk]
  have hme : C'.measure = C.measure := by funext R qs; simp only [WalkCtx.measure, hpg]
  rcases h with ⟨rfl, hx⟩ | ⟨p, R, qs, h, rfl, hlt⟩
  · exact .inl ⟨rfl, hR.congr fun k => by simp [scanHeld, hx.curPage, hh], by rw [hf]; exact hx.file,
      by rw [hk]; exact hx.keep, hx.curPage, hx.curPageNo⟩
  · obtain ⟨j, hc, hfind⟩ := h.frame
    have hpos : 0 < scanHeld C.hdrKey C.f s (some C.f, p) := by simp [scanHeld, hc, h.curPageNo, onePin]
    refine .inr ⟨p, R, qs,
      { reading := hR.congr fun k => by simp [scanHeld, ScanCtx.held, hc, h.curPageNo, hh, hf]
        file := by rw [hf]; exact h.file
        frame := ⟨j, hc, by rw [hf]; exact hkeep _ _ hfind hpos⟩
        curPageNo := h.curPageNo
        clean := h.clean
        keep := by rw [hk]; exact h.keep
        ahead := by rw [hpg]; exact h.ahead
        ne := h.ne
        numbered := by rw [hpg]; exact h.numbered
        chain := by rw [hpg]; exact h.chain }, by rw [hm], by rw [hme]; exact hlt⟩

end Scanning

/-! ## Between two calls -/

/-- The clients' ghost while the two handles run: it owes no page of `fin` and
has none of them fresh; an owed page was pinned at the start or is a page of
`fout` the inserter wrote; a fresh page of `fout` is one the inserter wrote. -/
structure GhostOk (W₀ : World) (fin fout : FileId) (wrote : Int → Bool) (g : Ghost) : Prop where
  input : ∀ q, g.owed (some fin, q) = false ∧ g.fresh (some fin, q) = false
  owed : ∀ k, g.owed k = true → 0 < pinOf W₀.pool k ∨ ∃ q, k = (some fout, q) ∧ wrote q = true
  fresh : ∀ q, g.fresh (some fout, q) = true → wrote q = true

/-- What the scan of `fin` and the inserter of `fout` may assume of the world `w`
between two calls, in a run begun at `W₀`, when the scan holds the pins `sc`,
the inserter the pins `ins`, and the inserter owes the pages `wrote` of `fout`
a write-back. -/
structure Shared (W₀ : World) (fin fout : FileId) (us : List Nat) (sc ins : Key → Nat) (wrote : Int → Bool)
    (w : World) : Prop where
  io : w.io = W₀.io
  rw : W₀.io.ReadWriteOk
  alloc : (W₀.io.allocatePage fout).1 = .OK
  inv₀ : Inv W₀.pool
  files : w.db.files = W₀.db.files
  first : w.db.first fin = W₀.db.first fin
  numBufs : w.pool.numBufs = W₀.pool.numBufs
  ghost : ∃ g, ContentInv (w.pool, g) ∧ GhostOk W₀ fin fout wrote g
  input : ∀ q, logical w.pool (some fin, q) = logical W₀.pool (some fin, q)
  ledger : ∀ k, pinOf w.pool k = pinOf W₀.pool k + ins k + sc k
  stay : ∀ k (j : Nat), W₀.pool.hashTable.find k = some (j : Int) → 0 < pinOf W₀.pool k →
    w.pool.hashTable.find k = some (j : Int)
  frames : ∀ u ∈ us, u < W₀.pool.numBufs ∧ (W₀.pool.bufTable u).pinCnt = 0
  unallocated : ∀ q, w.db.next fout ≤ q → w.pool.hashTable.find (some fout, q) = none
  scanPins : ∀ k, 0 < sc k → k.1 = some fin
  insPins : ∀ k, 0 < ins k → k.1 = some fout
  wroteHeld : ∀ q, wrote q = true → 0 < ins (some fout, q)

/-- A session of the scan between two calls: on `fin`, over its pages at the
start `W₀`, with the predicate `keep`, begun at `w` relieved of the scan's pins
`sc`, with a ghost `GhostOk` accepts. -/
structure ScanSession (W₀ : World) (fin fout : FileId) (keep : Record → Bool) (wrote : Int → Bool)
    (sc : Key → Nat) (w : World) (C : ScanCtx) : Prop where
  file : C.f = fin
  pg : C.pg = W₀.dataPage fin
  keep : C.keep = keep
  hdr : C.hdrKey = (some fin, W₀.db.first fin)
  origin : C.w₀ = w.relieve sc fun _ => false
  ghost : GhostOk W₀ fin fout wrote C.g

namespace Shared

variable {W₀ w : World} {us : List Nat} {sc ins : Key → Nat} {wrote : Int → Bool}

theorem inv (hS : Shared W₀ fin fout us sc ins wrote w) : Inv w.pool := by
  obtain ⟨g, hc, -⟩ := hS.ghost; exact hc.inv

/-- A frame of `us` carries only the two handles' pins. -/
theorem pinCnt_frame (hS : Shared W₀ fin fout us sc ins wrote w) {u : Nat} (hu : u ∈ us)
    (hv : (w.pool.bufTable u).valid = true) :
    (w.pool.bufTable u).pinCnt = ins (w.pool.bufTable u).key + sc (w.pool.bufTable u).key := by
  have hf := hS.inv.find_self (hS.numBufs ▸ (hS.frames u hu).1) hv
  have h0 : pinOf W₀.pool (w.pool.bufTable u).key = 0 := by
    refine Nat.eq_zero_of_not_pos fun hp => ?_
    obtain ⟨j, hj, hpj⟩ := find_of_pinOf_pos hS.inv₀ hp
    have hju : j = u := by simpa [hf] using (hS.stay _ j hj hp).symm
    rw [hju, (hS.frames u hu).2] at hpj
    exact Nat.lt_irrefl 0 hpj
  rw [← pinOf_of_find hf, hS.ledger, h0, Nat.zero_add]

/-- The start: neither handle holds pins or owes a write-back, no page of `fin`
is owed or fresh, and no page of `fout` is fresh. -/
theorem init (hrw : W₀.io.ReadWriteOk) (halloc : (W₀.io.allocatePage fout).1 = .OK) {g : Ghost}
    (hc : ContentInv (W₀.pool, g)) (hin : ∀ q, g.owed (some fin, q) = false ∧ g.fresh (some fin, q) = false)
    (hout : ∀ q, g.fresh (some fout, q) = false)
    (hus : ∀ u ∈ us, u < W₀.pool.numBufs ∧ (W₀.pool.bufTable u).pinCnt = 0)
    (hunalloc : ∀ q, W₀.db.next fout ≤ q → W₀.pool.hashTable.find (some fout, q) = none) :
    Shared W₀ fin fout us (fun _ => 0) (fun _ => 0) (fun _ => false) W₀ where
  io := rfl
  rw := hrw
  alloc := halloc
  inv₀ := hc.inv
  files := rfl
  first := rfl
  numBufs := rfl
  ghost := ⟨g, hc, hin, fun k hk => .inl (hc.owed k hk), fun q hq => by rw [hout q] at hq; cases hq⟩
  input _ := rfl
  ledger _ := rfl
  stay _ _ hf _ := hf
  frames := hus
  unallocated := hunalloc
  scanPins _ h := absurd h (Nat.lt_irrefl 0)
  insPins _ h := absurd h (Nat.lt_irrefl 0)
  wroteHeld _ h := by cases h

/-- All frames of `us` but `ks.length` hold no page with pins in `a`. -/
theorem frames_free (hS : Shared W₀ fin fout us sc ins wrote w) (hnd : us.Nodup) {a : Key → Nat} {ks : List Key}
    (hks : ∀ k, 0 < a k → k ∈ ks) :
    ∃ us' : List Nat, us'.Nodup ∧ us.length ≤ us'.length + ks.length ∧
      ∀ u ∈ us', u ∈ us ∧ ((w.pool.bufTable u).valid = true → a (w.pool.bufTable u).key = 0) := by
  obtain ⟨us', hnd', hlen, hmem⟩ := frames_avoiding hS.inv hnd (fun u hu => hS.numBufs ▸ (hS.frames u hu).1) ks
  exact ⟨us', hnd', hlen, fun u hu =>
    ⟨(hmem u hu).1, fun hv => Nat.eq_zero_of_not_pos fun h => (hmem u hu).2 hv (hks _ h)⟩⟩

theorem pinOf_relieve_sc (hS : Shared W₀ fin fout us sc ins wrote w) {wr : Key → Bool} (k : Key) :
    pinOf (w.relieve sc wr).pool k = pinOf W₀.pool k + ins k := by
  have := hS.ledger k
  rw [World.relieve, pinOf_relieve hS.inv]; omega

theorem pinOf_relieve_ins (hS : Shared W₀ fin fout us sc ins wrote w) {wr : Key → Bool} (k : Key) :
    pinOf (w.relieve ins wr).pool k = pinOf W₀.pool k + sc k := by
  have := hS.ledger k
  rw [World.relieve, pinOf_relieve hS.inv]; omega

/-- The scan's session, begun in the world relieved of the scan's pins, with two
frames of `us` that hold no page of the inserter. -/
theorem reading (hS : Shared W₀ fin fout us sc ins wrote w) (hnd : us.Nodup) {ki : List Key}
    (hki : ∀ k, 0 < ins k → k ∈ ki) (hlen : ki.length + 2 ≤ us.length) {g : Ghost}
    (hc : ContentInv (w.pool, g)) (hg : GhostOk W₀ fin fout wrote g) :
    ∃ u₁ u₂, u₁ ≠ u₂ ∧ Reading (w.relieve sc fun _ => false) g u₁ u₂ sc w := by
  obtain ⟨us', hnd', hlen', hmem⟩ := hS.frames_free hnd hki
  have hbud : ∀ u ∈ us', u < w.pool.numBufs ∧ Budget sc w.pool u := fun u hu =>
    ⟨hS.numBufs ▸ (hS.frames u (hmem u hu).1).1, fun hv => by
      rw [hS.pinCnt_frame (hmem u hu).1 hv, (hmem u hu).2 hv, Nat.zero_add]⟩
  match us', hnd', hlen', hbud with
  | u₁ :: u₂ :: _, hnd', _, hbud =>
    refine ⟨u₁, u₂, fun e => (List.nodup_cons.1 hnd').1 (e ▸ List.mem_cons_self _ _), ?_⟩
    obtain ⟨h₁, hb₁⟩ := hbud u₁ (List.mem_cons_self _ _)
    obtain ⟨h₂, hb₂⟩ := hbud u₂ (List.mem_cons_of_mem _ (List.mem_cons_self _ _))
    exact
      { io := rfl
        rw := hS.io ▸ hS.rw
        db := rfl
        numBufs := rfl
        content := hc
        owed := fun k hk => by
          rw [hS.pinOf_relieve_sc]
          rcases hg.owed k hk with h | ⟨q, rfl, hq⟩
          · omega
          · have := hS.wroteHeld q hq; omega
        logical := fun _ _ => rfl
        ledger := fun k => by have := hS.ledger k; rw [World.relieve, pinOf_relieve hS.inv]; omega
        lt₁ := h₁
        lt₂ := h₂
        budget₁ := hb₁
        budget₂ := hb₂
        stay := fun _ _ hf _ => ⟨hf, rfl⟩ }
  | [], _, h, _ | [_], _, h, _ => simp only [List.length_nil, List.length_singleton] at h; omega

/-- The inserter's session, begun in the world relieved of its pins and of the
pages it wrote, with the frames of `us` that hold no page of the scan. -/
theorem writing (hS : Shared W₀ fin fout us sc ins wrote w) (hnd : us.Nodup) {ks : List Key}
    (hks : ∀ k, 0 < sc k → k ∈ ks) :
    ∃ us' : List Nat, us'.Nodup ∧ us.length ≤ us'.length + ks.length ∧
      Writing (w.relieve ins (wroteKey fout wrote)) fout us' ins wrote w := by
  obtain ⟨us', hnd', hlen', hmem⟩ := hS.frames_free hnd hks
  obtain ⟨g, hc, hg⟩ := hS.ghost
  have hi := hS.inv
  have hrel : ∀ k, 0 < pinOf W₀.pool k → 0 < pinOf (w.relieve ins (wroteKey fout wrote)).pool k :=
    fun k h => by rw [hS.pinOf_relieve_ins]; omega
  let g' : Ghost := ⟨fun k => g.owed k && !wroteKey fout wrote k, fun k => g.fresh k && !wroteKey fout wrote k⟩
  have hclean : Clean g' (w.relieve ins (wroteKey fout wrote)).pool := fun k j hf hd ho hn => by
    obtain ⟨-, hv, hk⟩ := hi.find_nat hf
    simp only [World.relieve, relieve_of_valid hv, Bool.or_eq_false_iff, hk] at hd
    simp only [g', hd.2, Bool.not_false, Bool.and_true] at ho hn
    exact hc.clean k j hf hd.1 ho hn
  refine ⟨us', hnd', hlen', ?_⟩
  refine
    { origin :=
        { rw := hS.io ▸ hS.rw
          alloc := hS.io ▸ hS.alloc
          content := ⟨g', ⟨hi.relieve, hclean, fun k hk => ?_⟩, fun q => ?_⟩
          frames := fun u hu => ⟨hS.numBufs ▸ (hS.frames u (hmem u hu).1).1, ?_⟩
          unallocated := hS.unallocated }
      io := rfl
      files := rfl
      numBufs := rfl
      ghost := ⟨g, hc, fun k hk => (hg.owed k hk).imp_left (hrel k), hg.fresh⟩
      wroteHeld := hS.wroteHeld
      ledger := fun k => by have := hS.ledger k; rw [World.relieve, pinOf_relieve hi]; omega
      budget := fun u hu hv => by rw [hS.pinCnt_frame (hmem u hu).1 hv, (hmem u hu).2 hv, Nat.add_zero]
      unallocated := hS.unallocated
      stay := fun _ _ hf _ => hf }
  · simp only [g', Bool.and_eq_true, Bool.not_eq_true'] at hk
    rcases hg.owed k hk.1 with h | ⟨q, rfl, hq⟩
    · exact hrel k h
    · simp [wroteKey, hq] at hk
  · cases h : g.fresh (some fout, q)
    · simp [g', h]
    · simp [g', wroteKey, hg.fresh q h]
  · cases hv : (w.pool.bufTable u).valid
    · simpa [World.relieve, BufMgr.relieve, hv] using (hi.invalid_clear u (hS.numBufs ▸ (hS.frames u
        (hmem u hu).1).1) hv).1
    · simp only [World.relieve, relieve_of_valid hv, hS.pinCnt_frame (hmem u hu).1 hv, (hmem u hu).2 hv]
      omega

/-- A run of the scan, in the session `reading` begins and with calls on pages of
`fin` only, keeps `Shared` with the scan's new pins. The result file keeps its
bytes and counters, and the inserter's pages their frames. -/
theorem of_reading (hS : Shared W₀ fin fout us sc ins wrote w) (hne : fin ≠ fout) {g : Ghost}
    (hg : GhostOk W₀ fin fout wrote g) {u₁ u₂ : Nat} {sc' : Key → Nat} {w' : World}
    (hR : Reading (w.relieve sc fun _ => false) g u₁ u₂ sc' w') (hsc : ∀ k, 0 < sc' k → k.1 = some fin)
    (hc : FileCalls fin w w') :
    Shared W₀ fin fout us sc' ins wrote w' ∧ w'.db = w.db ∧
      (∀ q, logical w'.pool (some fout, q) = logical w.pool (some fout, q)) ∧ Keeps ins w w' := by
  have hpin : ∀ k, 0 < ins k → 0 < pinOf (w.relieve sc fun _ => false).pool k := fun k h => by
    rw [hS.pinOf_relieve_sc]; omega
  obtain ⟨-, -, hn, hf⟩ := hc _ (unmapped_closed hne (hS.io ▸ hS.rw) (w.db.next fout))
    ⟨hS.inv, rfl, rfl, hS.unallocated⟩
  refine ⟨{ hS with
      io := hR.io.trans hS.io
      files := by rw [hR.db]; exact hS.files
      first := by rw [hR.db]; exact hS.first
      numBufs := hR.numBufs.trans hS.numBufs
      ghost := ⟨g, hR.content, hg⟩
      input := fun q => (hR.logical _ (hg.input q).2).trans (hS.input q)
      ledger := fun k => by
        have := hS.ledger k; have := hR.ledger k; rw [hS.pinOf_relieve_sc] at this; omega
      stay := fun k j hf hp => (hR.stay k j (hS.stay k j hf hp) (by rw [hS.pinOf_relieve_sc]; omega)).1
      unallocated := fun q hq => hf q (hn ▸ hq)
      scanPins := hsc }, hR.db, fun q => ?_, fun k j hf hk => (hR.stay k j hf (hpin k hk)).1⟩
  cases h : g.fresh (some fout, q)
  · exact hR.logical _ h
  · obtain ⟨j, hj, -⟩ := find_of_pinOf_pos (k := (some fout, q)) hS.inv (by
      have := hS.ledger (some fout, q); have := hS.wroteHeld q (hg.fresh q h); omega)
    obtain ⟨hj', hb⟩ := hR.stay _ j hj (hpin _ (hS.wroteHeld q (hg.fresh q h)))
    rw [logical_of_find hj', logical_of_find hj, hb]; rfl

/-- A run of the inserter, in the session `writing` begins and with calls on
pages of `fout` only, keeps `Shared` with the inserter's new pins and writes.
The scan's pages keep their frames. -/
theorem of_writing (hS : Shared W₀ fin fout us sc ins wrote w) (hne : fin ≠ fout) {us' : List Nat}
    {ins' : Key → Nat} {wrote' : Int → Bool} {w' : World}
    (hW : Writing (w.relieve ins (wroteKey fout wrote)) fout us' ins' wrote' w')
    (hins : ∀ k, 0 < ins' k → k.1 = some fout) (hc : FileCalls fout w w') :
    Shared W₀ fin fout us sc ins' wrote' w' ∧ Keeps sc w w' := by
  have hpin : ∀ k, 0 < pinOf W₀.pool k + sc k → 0 < pinOf (w.relieve ins (wroteKey fout wrote)).pool k :=
    fun k h => by rw [hS.pinOf_relieve_ins]; exact h
  obtain ⟨g, hc₀, hg⟩ := hS.ghost
  obtain ⟨g₂, hc₂, how₂, hfr₂⟩ := hW.ghost
  have hfin : ContentInv (w.pool, finGhost fin) := ⟨hc₀.inv, hc₀.clean.finGhost fun k hk => by
    obtain ⟨k1, k2⟩ := k; simp only at hk; subst hk; exact hg.input k2, fun _ h => by cases h⟩
  obtain ⟨hcf, -, hfst, hL⟩ := hc _ (finKept_closed hne (hS.io ▸ hS.rw) _ _) ⟨hfin, rfl, rfl, fun _ => rfl⟩
  let g' : Ghost := ⟨fun k => if k.1 = some fin then false else g₂.owed k,
    fun k => if k.1 = some fin then false else g₂.fresh k⟩
  have hclean : Clean g' w'.pool := fun k j hf hd ho hn => by
    by_cases hk : k.1 = some fin
    · exact hcf.clean k j hf hd rfl (by simp [finGhost, hk])
    · simp only [g', if_neg hk] at ho hn
      exact hc₂.clean k j hf hd ho hn
  have howed : ∀ k, g'.owed k = true → k.1 ≠ some fin ∧ g₂.owed k = true := fun k hk => by
    simp only [g'] at hk; split at hk
    · cases hk
    · exact ⟨‹_›, hk⟩
  have hkf : ∀ q : Int, ((some fout, q) : Key).1 ≠ some fin := fun _ e => hne (Option.some.inj e).symm
  refine ⟨{ hS with
      io := hW.io.trans hS.io
      files := hW.files.trans hS.files
      first := hfst.trans hS.first
      numBufs := hW.numBufs.trans hS.numBufs
      ghost := ⟨g', ⟨hc₂.inv, hclean, fun k hk => hc₂.owed k (howed k hk).2⟩, ⟨fun q => by simp [g'], fun k hk => ?_,
        fun q hq => hfr₂ q (by simpa only [g', if_neg (hkf q)] using hq)⟩⟩
      input := fun q => (hL q).trans (hS.input q)
      ledger := fun k => by
        have := hS.ledger k; have := hW.ledger k; rw [World.relieve, pinOf_relieve hS.inv] at this; omega
      stay := fun k j hf hp => hW.stay k j (hS.stay k j hf hp) (hpin k (by omega))
      unallocated := hW.unallocated
      insPins := hins
      wroteHeld := hW.wroteHeld }, fun k j hf hk => hW.stay k j hf (hpin k (by omega))⟩
  obtain ⟨hk', hk⟩ := howed k hk
  rcases how₂ k hk with h | h
  · left
    have h0 : sc k = 0 := Nat.eq_zero_of_not_pos fun h' => hk' (hS.scanPins k h')
    rw [hS.pinOf_relieve_ins, h0] at h; exact h
  · exact .inr h

/-- A scan that stood on the chain in some session, and whose pages kept their
frames since, stands there in the session begun at `w` relieved of its pins. -/
theorem rescan {s : HeapFileScan}
    (hS : Shared W₀ fin fout us (scanHeld (some fin, W₀.db.first fin) fin s) ins wrote w)
    (hnd : us.Nodup) {ki : List Key} (hki : ∀ k, 0 < ins k → k ∈ ki) (hlen : ki.length + 2 ≤ us.length)
    {C : ScanCtx} {m : Nat} {rem : List (RID × Record)} {w' : World} (hf : C.f = fin) (hpg : C.pg = W₀.dataPage fin)
    (hh : C.hdrKey = (some fin, W₀.db.first fin)) (h : Scanning C m rem s w')
    (hkeep : Keeps (scanHeld (some fin, W₀.db.first fin) fin s) w' w) :
    ∃ C', ScanSession W₀ fin fout C.keep wrote (scanHeld (some fin, W₀.db.first fin) fin s) w C' ∧
      Scanning C' m rem s w := by
  obtain ⟨g, hc, hg⟩ := hS.ghost
  obtain ⟨u₁, u₂, hne, hR⟩ := hS.reading hnd hki hlen hc hg
  let C' : ScanCtx := ⟨⟨w.relieve (scanHeld (some fin, W₀.db.first fin) fin s) fun _ => false, fin, C.keep⟩,
    g, u₁, u₂, fun q => (hg.input q).2, hne⟩
  have hpg' : C'.pg = W₀.dataPage fin := funext fun q => by
    show (logical w.pool (some fin, q)).toPage = _
    rw [hS.input]; rfl
  have hh' : C'.hdrKey = (some fin, W₀.db.first fin) := by
    show (some fin, w.db.first fin) = _
    rw [hS.first]
  refine ⟨C', ⟨rfl, hpg', rfl, hh', rfl, hg⟩, h.rebase hf.symm (hpg'.trans hpg.symm) rfl (hh'.trans hh.symm)
    (by rw [hh, hf]; exact hR) (by rw [hh, hf]; exact hkeep)⟩

end Shared

end Minirel
