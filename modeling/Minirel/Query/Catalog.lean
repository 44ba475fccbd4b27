import Minirel.Heap.Predicate

/-!
# Attribute values, catalog descriptions and filters (`src/stage6`, `src/unnamed/part_003`)

The query operators take attribute values as text (`attrInfo.attrValue`, a C
string) and look attributes up in the catalog, `attrCat`. The catalog is not in
the repository: `Catalog` is modelled from the two calls the operators make,
`getRelInfo` (a relation's attributes) and `getInfo` (one attribute).

`QU_Select` and `QU_Delete` turn the text into the bytes the scan's filter
points to with the same code (select.C:63-96, delete.C:44-77), `buildFilter`:
the four bytes of the `int` that `atoi` returns, those of the `float` that
`atof` returns, or, for STRING, `attrLen` bytes that `strncpy` fills from the
text and pads with NUL. `(float)atof` is a parameter: its decimal conversion is
the C library's.

The model wraps two more `int` conversions modulo 2^32, as it wraps
`matchRec`'s arithmetic (`cInt`): `atoi`'s result, and `(int)strlen(...)`,
which is negative for a text of 2^31 to 2^32 - 1 bytes.

**Results.**
* `int32_intBytes`: the four bytes of an `int`, copied back into an `int`,
  give it back.
* `strncmp_padded`: two texts, each padded with NUL to `n` bytes, compare equal
  under `strncmp(·, ·, n)` exactly when they are the same text.
* `buildFilter_ok`: an accepted filter comes from the catalog's description of
  the attribute, with the query's type; for INTEGER it is the bytes of `atoi`'s
  `int`, for STRING the text padded to `attrLen`, which is at least its length.
* `matchRec_eq_int`, `matchRec_eq_string`: `matchRec` with EQ on a field that
  holds the bytes of an `int`, or a text padded with NUL, accepts the record
  exactly when the filter holds the same `int`, or the same text.
-/
namespace Minirel

/-! ## C strings and `int` conversions -/

/-- A C string: its characters, without the terminating NUL. -/
structure CStr where
  chars : List UInt8
  noNul : 0 ∉ chars
  deriving DecidableEq

/-- `strlen`. -/
def CStr.strlen (v : CStr) : Nat := v.chars.length

/-- A conversion to `int` (from `size_t`, from `long`, or of an `int` sum that
overflows): the low 32 bits, in two's complement. -/
def cInt (x : Int) : Int := Int.bmod x (2 ^ 32)

theorem cInt_range (x : Int) : -2 ^ 31 ≤ cInt x ∧ cInt x < 2 ^ 31 := by
  have h₁ := Int.le_bmod (x := x) (m := 2 ^ 32) (by decide)
  have h₂ := Int.bmod_lt (x := x) (m := 2 ^ 32) (by decide)
  unfold cInt
  omega

theorem cInt_of_fits {x : Int} (h₁ : -2 ^ 31 ≤ x) (h₂ : x < 2 ^ 31) : cInt x = x := bmod_of_fits h₁ h₂

/-- `isspace` in the C locale. -/
def isSpace (c : UInt8) : Bool := c == 32 || (9 ≤ c && c ≤ 13)

/-- The decimal digits at the front of `b`, read onto `acc`. -/
def decimalPrefix : List UInt8 → Nat → Nat
  | c :: cs, acc => if 48 ≤ c ∧ c ≤ 57 then decimalPrefix cs (10 * acc + (c.toNat - 48)) else acc
  | [], acc => acc

/-- `atoi` as glibc computes it, `(int) strtol(s, NULL, 10)`: leading white
space, an optional sign, decimal digits; `strtol` clamps the value to the range
of `long`, and the conversion to `int` keeps the low 32 bits. -/
def atoi (v : CStr) : Int :=
  let (neg, ds) : Bool × List UInt8 :=
    match v.chars.dropWhile isSpace with
    | 45 :: t => (true, t)
    | 43 :: t => (false, t)
    | t => (false, t)
  let n : Int := decimalPrefix ds 0
  cInt (max (-2 ^ 63) (min (if neg then -n else n) (2 ^ 63 - 1)))

theorem atoi_range (v : CStr) : -2 ^ 31 ≤ atoi v ∧ atoi v < 2 ^ 31 := cInt_range _

/-! ## Bytes in memory -/

/-- The four bytes of an `int` in memory (`memcpy(.., &intVal, sizeof(int))`),
little-endian. -/
def intBytes (x : Int) : List UInt8 :=
  let u := (x % 2 ^ 32).toNat
  [.ofNat (u % 256), .ofNat (u / 256 % 256), .ofNat (u / 65536 % 256), .ofNat (u / 16777216 % 256)]

@[simp] theorem intBytes_length (x : Int) : (intBytes x).length = 4 := rfl

theorem toNat_ofNat_mod (n : Nat) : (UInt8.ofNat (n % 256)).toNat = n % 256 :=
  UInt8.toNat_ofNat_of_lt (Nat.mod_lt _ (by decide))

theorem le32_intBytes (x : Int) : le32 (intBytes x) = (x % 2 ^ 32).toNat := by
  have hu : (x % 2 ^ 32).toNat < 2 ^ 32 := by omega
  simp only [le32, intBytes, List.getD_cons_zero, List.getD_cons_succ, toNat_ofNat_mod]
  generalize (x % 2 ^ 32).toNat = u at hu ⊢
  omega

/-- The bytes of an `int`, copied back into an `int`, give it back. -/
theorem int32_intBytes {x : Int} (h₁ : -2 ^ 31 ≤ x) (h₂ : x < 2 ^ 31) : int32 (intBytes x) = x := by
  rw [int32, le32_intBytes, Int.toNat_of_nonneg (by omega), show (2 : Int) ^ 32 = ((2 ^ 32 : Nat) : Int) by norm_num,
    Int.emod_bmod_congr]
  exact bmod_of_fits h₁ h₂

/-- What `memset(buf, 0, n)` and then `strncpy(buf, v, n)` leave in `buf`: the
first `n` characters of `v`, then NUL up to `n` bytes. -/
def strncpy (v : CStr) (n : Nat) : List UInt8 := v.chars.take n ++ List.replicate (n - v.strlen) 0

/-- `memcpy(buf + off, src, src.length)`: `src` over the bytes of `buf` from `off` on. -/
def memcpyAt (buf : List UInt8) (off : Nat) (src : List UInt8) : List UInt8 :=
  buf.take off ++ src ++ buf.drop (off + src.length)

theorem memcpyAt_length {buf src : List UInt8} {off : Nat} (h : off + src.length ≤ buf.length) :
    (memcpyAt buf off src).length = buf.length := by
  simp only [memcpyAt, List.length_append, List.length_take, List.length_drop]
  omega

/-- Byte `i` after the copy: `src`'s inside the copied range, `buf`'s outside. -/
theorem memcpyAt_getElem? {buf src : List UInt8} {off : Nat} (h : off + src.length ≤ buf.length) (i : Nat) :
    (memcpyAt buf off src)[i]? = if off ≤ i ∧ i < off + src.length then src[i - off]? else buf[i]? := by
  unfold memcpyAt
  split
  · next hi =>
    rw [List.getElem?_append_left (by simp only [List.length_append, List.length_take]; omega),
      List.getElem?_append_right (by simp only [List.length_take]; omega), List.length_take,
      Nat.min_eq_left (by omega)]
  · next hi =>
    by_cases hlt : i < off
    · rw [List.getElem?_append_left (by simp only [List.length_append, List.length_take]; omega),
        List.getElem?_append_left (by simp only [List.length_take]; omega), List.getElem?_take, if_pos hlt]
    · rw [List.getElem?_append_right (by simp only [List.length_append, List.length_take]; omega),
        List.getElem?_drop]
      simp only [List.length_append, List.length_take]
      congr 1
      omega

/-! ## `strncmp` on padded texts -/

/-- `strncmp(a, b, n)` reads at most `n` bytes of each side. -/
theorem strncmp_take : ∀ (a b : List UInt8) (n : Nat), strncmp a b n = strncmp (a.take n) (b.take n) n
  | _, _, 0 => rfl
  | a, b, n + 1 => by
    have ha : (a.take (n + 1)).headD 0 = a.headD 0 ∧ (a.take (n + 1)).tail = a.tail.take n := by
      cases a <;> simp
    have hb : (b.take (n + 1)).headD 0 = b.headD 0 ∧ (b.take (n + 1)).tail = b.tail.take n := by
      cases b <;> simp
    simp only [strncmp, ha, hb, ← strncmp_take a.tail b.tail n]

/-- A text padded with NUL to `n` bytes. -/
def CStr.padded (v : CStr) (n : Nat) : List UInt8 := v.chars ++ List.replicate (n - v.strlen) 0

/-- Two texts of at most `n` characters, padded with NUL to `n` bytes, compare
equal under `strncmp(·, ·, n)` exactly when they are the same text. -/
theorem strncmp_padded : ∀ (n : Nat) (v w : CStr), v.strlen ≤ n → w.strlen ≤ n →
    (strncmp (v.padded n) (w.padded n) n = .zero ↔ v = w)
  | 0, ⟨[], _⟩, ⟨[], _⟩, _, _ => by simp [strncmp]
  | 0, ⟨_ :: _, _⟩, _, hv, _ => absurd hv (by simp [CStr.strlen])
  | 0, _, ⟨_ :: _, _⟩, _, hw => absurd hw (by simp [CStr.strlen])
  | n + 1, ⟨[], _⟩, ⟨[], _⟩, _, _ => by simp [strncmp, CStr.padded, CStr.strlen, List.replicate_succ]
  | n + 1, ⟨[], _⟩, ⟨y :: w, hw⟩, _, _ => by
    have hy : y ≠ 0 := fun h => hw (h ▸ List.mem_cons_self _ _)
    have : (0 : UInt8) < y := Nat.pos_of_ne_zero fun h => hy (UInt8.toNat.inj (h.trans UInt8.toNat_zero.symm))
    simp [strncmp, CStr.padded, CStr.strlen, List.replicate_succ, this]
  | n + 1, ⟨x :: v, hv⟩, ⟨[], _⟩, _, _ => by
    have hx : x ≠ 0 := fun h => hv (h ▸ List.mem_cons_self _ _)
    have h₁ : (0 : UInt8) < x := Nat.pos_of_ne_zero fun h => hx (UInt8.toNat.inj (h.trans UInt8.toNat_zero.symm))
    have h₂ : ¬ x < (0 : UInt8) := Nat.not_lt_zero _
    simp [strncmp, CStr.padded, CStr.strlen, List.replicate_succ, h₁, h₂]
  | n + 1, ⟨x :: v, hv⟩, ⟨y :: w, hw⟩, hlv, hlw => by
    have ih := strncmp_padded n ⟨v, fun h => hv (List.mem_cons_of_mem _ h)⟩
      ⟨w, fun h => hw (List.mem_cons_of_mem _ h)⟩ (Nat.le_of_succ_le_succ hlv) (Nat.le_of_succ_le_succ hlw)
    have hx : x ≠ 0 := fun h => hv (h ▸ List.mem_cons_self _ _)
    simp only [CStr.padded, CStr.strlen, List.length_cons, List.cons_append, Nat.add_sub_add_right] at ih ⊢
    simp only [strncmp, List.headD_cons, List.tail_cons, CStr.mk.injEq, List.cons.injEq]
    by_cases hxy : x = y
    · subst hxy; simp only [UInt8.lt_irrefl, if_false, hx, true_and]; exact ih.trans (by simp)
    · have hne : x.toNat ≠ y.toNat := fun h => hxy (UInt8.toNat.inj h)
      rcases (by omega : x.toNat < y.toNat ∨ y.toNat < x.toNat) with h | h
      · have h' : x < y := h
        simp [h', hxy]
      · have h' : y < x := h
        simp [h', UInt8.lt_asymm h', hxy]

/-! ## The catalog -/

/-- Modelled from the catalog's interface: an attribute of a relation as
`attrCat` describes it (`AttrDesc`). -/
structure AttrDesc where
  relName : String
  attrName : String
  attrOffset : Int
  attrType : Datatype
  attrLen : Int
  deriving DecidableEq, Repr

/-- Modelled from the parser's interface: an attribute named in a query
(`attrInfo`), with its text. Its `attrLen` is left out: no modelled function
reads it. -/
structure AttrInfo where
  relName : String
  attrName : String
  attrType : Datatype
  attrValue : CStr
  deriving DecidableEq

/-- Modelled from the catalog's interface: what `attrCat->getRelInfo` answers
for a relation name, its attributes in the catalog's order or an error. -/
structure Catalog where
  getRelInfo : String → Except Status (List AttrDesc)

/-- `attrCat->getInfo(relation, attrName, attrDesc)`: the relation's attribute
of that name, ATTRNOTFOUND when it has none. -/
def Catalog.getInfo (cat : Catalog) (relation attrName : String) : Except Status AttrDesc :=
  match cat.getRelInfo relation with
  | .ok attrs =>
    match attrs.find? (·.attrName == attrName) with
    | some d => .ok d
    | none => .error .ATTRNOTFOUND
  | .error e => .error e

/-- In a relation whose attribute names are distinct, `getInfo` finds each
attribute by its name, and only it. -/
theorem Catalog.getInfo_eq {cat : Catalog} {relation : String} {attrs : List AttrDesc}
    (h : cat.getRelInfo relation = .ok attrs) (hnd : (attrs.map (·.attrName)).Nodup) {a : AttrDesc}
    (ha : a ∈ attrs) {d : AttrDesc} : cat.getInfo relation a.attrName = .ok d ↔ d = a := by
  have hf : attrs.find? (·.attrName == a.attrName) = some a := by
    rw [List.find?_eq_some]
    refine ⟨by simp, ?_⟩
    obtain ⟨as, bs, rfl⟩ := List.append_of_mem ha
    refine ⟨as, bs, rfl, fun b hb => ?_⟩
    have : b.attrName ≠ a.attrName := by
      intro he
      rw [List.map_append, List.map_cons] at hnd
      exact List.disjoint_of_nodup_append hnd (List.mem_map_of_mem _ hb) (he ▸ List.mem_cons_self _ _)
    simpa using this
  simp only [Catalog.getInfo, h, hf, Except.ok.injEq]
  exact eq_comm

/-! ## The filter of `QU_Select` and `QU_Delete` -/

/-- mirrors select.C:63-96 and delete.C:44-77: the catalog's description of
attribute `attrName` of `relName`, checked against the query's `type`, and the
bytes `filter` points to for the text `attrValue`. `atofBits` is the bits of
`(float)atof(attrValue)`. `QU_Select` switches on the description's type and
`QU_Delete` on `type`; past the check they are equal. `new char[attrLen]` fails
only for a negative `attrLen`. -/
def buildFilter (atofBits : CStr → UInt32) (cat : Catalog) (relName attrName : String) (type : Datatype)
    (attrValue : CStr) : Except Status (AttrDesc × List UInt8) :=
  match cat.getInfo relName attrName with
  | .error e => .error e
  | .ok d =>
    if d.attrType ≠ type then .error .ATTRTYPEMISMATCH
    else
      match d.attrType with
      | .INTEGER => .ok (d, intBytes (atoi attrValue))
      | .FLOAT => .ok (d, intBytes (atofBits attrValue).toNat)
      | .STRING =>
        if cInt attrValue.strlen > d.attrLen then .error .ATTRTOOLONG
        else if d.attrLen < 0 then .error .INSUFMEM
        else .ok (d, strncpy attrValue d.attrLen.toNat)

/-- An accepted filter comes from the catalog's description of the attribute,
with the query's type: for INTEGER the bytes of `atoi`'s `int`; for STRING,
when the text is shorter than 2^31 bytes, the text padded to `attrLen`, which
is at least its length. -/
theorem buildFilter_ok {atofBits : CStr → UInt32} {cat : Catalog} {relName attrName : String} {type : Datatype}
    {v : CStr} {d : AttrDesc} {flt : List UInt8} (h : buildFilter atofBits cat relName attrName type v = .ok (d, flt))
    (hv : v.strlen < 2 ^ 31) :
    cat.getInfo relName attrName = .ok d ∧ d.attrType = type ∧
      (d.attrType = .INTEGER → flt = intBytes (atoi v)) ∧
      (d.attrType = .STRING → (v.strlen : Int) ≤ d.attrLen ∧ flt = v.padded d.attrLen.toNat) := by
  unfold buildFilter at h
  split at h
  · cases h
  next d' hd =>
    split at h
    · cases h
    next ht =>
      have ht : d'.attrType = type := not_not.1 ht
      split at h
      · next hi => cases h; exact ⟨hd, ht, fun _ => rfl, fun hs => absurd (hi.symm.trans hs) (by decide)⟩
      · next hf =>
        cases h
        exact ⟨hd, ht, fun hi => absurd (hf.symm.trans hi) (by decide), fun hs => absurd (hf.symm.trans hs) (by decide)⟩
      · next hs =>
        have hc : cInt v.strlen = v.strlen := cInt_of_fits (by omega) (by omega)
        split at h
        · cases h
        split at h
        · cases h
        next hle _ =>
          cases h
          have hle : (v.strlen : Int) ≤ d.attrLen := by omega
          refine ⟨hd, ht, fun hi => absurd (hs.symm.trans hi) (by decide), fun _ => ⟨hle, ?_⟩⟩
          rw [strncpy, List.take_of_length_le (by unfold CStr.strlen at hle; omega)]
          rfl

/-! ## `matchRec` with EQ on an `int` or a text -/

/-- An INTEGER scan with EQ, on a record whose field holds the bytes of the `int`
`x`, with the filter holding those of `y`: it accepts the record exactly when
`x = y`. -/
theorem matchRec_eq_int {s : HeapFileScan} {rec : Record} {x y : Int} (hf : s.filter = some (intBytes y))
    (ht : s.type = .INTEGER) (hl : s.length = 4) (hop : s.op = .EQ) (ho : 0 ≤ s.offset)
    (hin : s.offset + 4 ≤ rec.length) (hrec : (rec.length : Int) < 2 ^ 31)
    (hfield : (rec.data.drop s.offset.toNat).take 4 = intBytes x) (hx : -2 ^ 31 ≤ x ∧ x < 2 ^ 31)
    (hy : -2 ^ 31 ≤ y ∧ y < 2 ^ 31) : s.matchRec rec = decide (x = y) := by
  rw [HeapFileScan.matchRec_integer hf ht hl ho hin hrec, hfield, hop, List.take_of_length_le (by simp),
    int32_intBytes hx.1 hx.2, int32_intBytes hy.1 hy.2]
  have : Int.bmod (x - y) (2 ^ 32) = 0 ↔ x = y := by
    rw [Int.bmod_def]; constructor <;> intro h <;> split at * <;> omega
  rw [← Int.sub_zero (Int.bmod (x - y) (2 ^ 32)), Operator.holds_ofInt_sub]
  exact decide_eq_decide.2 this

/-- A STRING scan with EQ over `n` bytes, on a record whose field holds the text
`v` padded to `n` bytes, with the filter holding `w` padded the same way: it
accepts the record exactly when `v` and `w` are the same text. -/
theorem matchRec_eq_string {s : HeapFileScan} {rec : Record} {n : Nat} {v w : CStr}
    (hf : s.filter = some (w.padded n)) (ht : s.type = .STRING) (hl : s.length = n) (hop : s.op = .EQ)
    (ho : 0 ≤ s.offset) (hin : s.offset + n ≤ rec.length) (hrec : (rec.length : Int) < 2 ^ 31)
    (hfield : (rec.data.drop s.offset.toNat).take n = v.padded n) (hv : v.strlen ≤ n) (hw : w.strlen ≤ n) :
    s.matchRec rec = decide (v = w) := by
  have hs : s.tooShort rec = false := by
    unfold HeapFileScan.tooShort
    rw [bmod_of_fits (by omega) (by omega)]
    simp only [decide_eq_false_iff_not]; omega
  have hpw : (w.padded n).take n = w.padded n :=
    List.take_of_length_le (by simp [CStr.padded, CStr.strlen] at hw ⊢; omega)
  simp only [HeapFileScan.matchRec, hf, hs, ht, hl, hop, fieldDiff, if_false, Int.toNat_ofNat, Bool.false_eq_true]
  rw [strncmp_take, hfield, hpw]
  by_cases h : v = w
  · simp [h, Operator.holds, (strncmp_padded n w w hw hw).2 rfl]
  · have := (strncmp_padded n v w hv hw).not.2 h
    simp only [Operator.holds, h, decide_False]
    revert this; generalize strncmp _ _ n = r; cases r <;> simp

end Minirel
