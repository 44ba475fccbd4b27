import Minirel.Query.Catalog
import Minirel.Heap.InsertRun

/-!
# Inserting a tuple (`src/stage6/insert.C`)

`QU_Insert` gets the relation's attributes from the catalog, builds the record
in a zero-filled buffer of `reclen` bytes (the sum of the `attrLen`s), and
inserts it through an `InsertFileScan`. For each attribute of the relation, in
the catalog's order, it takes the first entry of the attribute list with that
name; a name the list lacks, an entry taken twice, a type that differs, or a
text longer than a STRING attribute stops it. An INTEGER value is written as
the four bytes of `atoi`'s `int`, a FLOAT one as the four bytes of `atof`'s
`float`, a STRING one as its `strlen` characters; the rest of the attribute
stays zero.

Nothing checks that a FLOAT attribute has four bytes, or that the record fits
on a page: `insertRecord` rejects a record longer than a page holds with
INVALIDRECLEN.

**Results.**
* `encodeAttrs_ok_iff`: on a relation whose attribute names are distinct and a
  list of as many entries, with texts shorter than 2^31 bytes, the loop gets
  through exactly when the list matches the relation (`AttrsMatch`).
* `writeFields_field`: then each attribute's bytes in the record are its
  value's bytes, padded with zeros.
* `quInsert_rejects`: on a list that does not match, `QU_Insert` returns an
  error and leaves the world as it was.
* `quInsert_appends`: on one that does, with a record that fits on a page and a
  well-formed heap file in a settled pool, it returns OK and appends the record.
* `quInsert_filter_agrees`: both, and on the inserted record `matchRec` with EQ
  and the filter `QU_Select` or `QU_Delete` builds from a text accepts exactly
  when the text has the inserted value's `atoi` (INTEGER) or is the inserted
  text (STRING).
* `quInsert_record_too_long`: on pages with room for three bytes, a relation of
  one STRING attribute of four bytes rejects the list that names it with the
  right type and a one-character text.
* `quInsert_empty_relation`, `quInsert_float_overwrites`, `quInsert_text_wraps`:
  the relation name `""` is refused before the catalog is asked; a FLOAT
  attribute of two bytes gets the four bytes of a `float`, over the attribute
  after it; a text of 2^32 + 1 characters passes the length check of a
  three-byte attribute, since `(int)strlen` wraps.
-/
namespace Minirel

open BufMgr

/-- `reclen` (insert.C:49-52, select.C:47-54): the sum of the `attrLen`s, in `int`. -/
def recLen (attrs : List AttrDesc) : Int := cInt (attrs.map (·.attrLen)).sum

/-- The first entry of `attrList` named `name`, with its index (insert.C:71-77). -/
def firstNamed (attrList : List AttrInfo) (name : String) : Option (Nat × AttrInfo) :=
  attrList.enum.find? (·.2.attrName == name)

/-- The bytes `QU_Insert` copies for attribute `a` with the text `v`
(insert.C:94-114), at `a`'s offset whatever `a`'s length. -/
def fieldBytes (atofBits : CStr → UInt32) (a : AttrDesc) (v : CStr) : List UInt8 :=
  match a.attrType with
  | .INTEGER => intBytes (atoi v)
  | .FLOAT => intBytes (atofBits v).toNat
  | .STRING => v.chars.take (cInt v.strlen).toNat

/-- mirrors insert.C:70-115: the relation's attributes `attrs`, in order, each
looked up in `attrList`, checked, and its value copied into `recordData`;
`used` is the array marking the entries taken. -/
def encodeAttrs (atofBits : CStr → UInt32) (attrList : List AttrInfo) :
    List AttrDesc → (Nat → Bool) → List UInt8 → Except Status (List UInt8)
  | [], _, rec => .ok rec
  | a :: attrs, used, rec =>
    match firstNamed attrList a.attrName with
    | none => .error .ATTRNOTFOUND
    | some (j, x) =>
      if used j then .error .BADCATPARM
      else if x.attrType ≠ a.attrType then .error .ATTRTYPEMISMATCH
      else if a.attrType = .STRING ∧ cInt x.attrValue.strlen > a.attrLen then .error .ATTRTOOLONG
      else encodeAttrs atofBits attrList attrs (Function.update used j true)
        (memcpyAt rec a.attrOffset.toNat (fieldBytes atofBits a x.attrValue))

/-- mirrors insert.C:28-131 (`QU_Insert`), with `attrCnt` the length of
`attrList`. `recordData` and `used` fail to allocate only for a negative size;
the inserter's destructor runs at each return after its constructor. -/
def quInsert (atofBits : CStr → UInt32) (G : Geom) (cat : Catalog) (w : World) (relation : String)
    (attrList : List AttrInfo) : Status × World :=
  if relation = "" then (.BADCATPARM, w)
  else
    match cat.getRelInfo relation with
    | .error e => (e, w)
    | .ok relAttrs =>
      if attrList.length ≠ relAttrs.length then (.BADCATPARM, w)
      else if recLen relAttrs < 0 then (.INSUFMEM, w)
      else
        match encodeAttrs atofBits attrList relAttrs (fun _ => false)
            (List.replicate (recLen relAttrs).toNat 0) with
        | .error e => (e, w)
        | .ok data =>
          let (st, s, w1) := InsertFileScan.new w relation
          if st ≠ .OK then (st, s.destructor w1)
          else
            let (r, s2, w2) := s.insertRecord G w1 ⟨data⟩
            (statusOf r, s2.destructor w2)

/-! ## What the relation and the list must be -/

/-- Attribute ranges `[attrOffset, attrOffset + attrLen)` with no byte in common. -/
def AttrDesc.Disjoint (a b : AttrDesc) : Prop :=
  ∀ x : Int, a.attrOffset ≤ x → x < a.attrOffset + a.attrLen → x < b.attrOffset ∨ b.attrOffset + b.attrLen ≤ x

theorem AttrDesc.Disjoint.symm {a b : AttrDesc} (h : a.Disjoint b) : b.Disjoint a := fun x h₁ h₂ => by
  by_contra hx
  have := h x (by omega) (by omega)
  omega

/-- A relation as the catalog describes it: attribute names distinct, each range
inside the record of `reclen` bytes and disjoint from the others, INTEGER
attributes of `sizeof(int)` bytes. -/
structure SchemaOk (attrs : List AttrDesc) : Prop where
  names : (attrs.map (·.attrName)).Nodup
  inside : ∀ a ∈ attrs, 0 ≤ a.attrOffset ∧ a.attrOffset + a.attrLen ≤ recLen attrs
  disjoint : attrs.Pairwise AttrDesc.Disjoint
  int4 : ∀ a ∈ attrs, a.attrType = .INTEGER → a.attrLen = 4

/-- An attribute list that matches the relation: its names are a permutation of
the relation's, each entry has its attribute's type, and a STRING entry's text
has at most `attrLen` characters. -/
def AttrsMatch (attrs : List AttrDesc) (attrList : List AttrInfo) : Prop :=
  (attrList.map (·.attrName)).Perm (attrs.map (·.attrName)) ∧
    ∀ a ∈ attrs, ∀ x ∈ attrList, x.attrName = a.attrName →
      x.attrType = a.attrType ∧ (a.attrType = .STRING → (x.attrValue.strlen : Int) ≤ a.attrLen)

/-- What the loop needs of attribute `a` to get past it: an entry named like it,
the first of them with its type and, for STRING, a text that is not too long. -/
def Accepts (attrList : List AttrInfo) (a : AttrDesc) : Prop :=
  ∃ j x, firstNamed attrList a.attrName = some (j, x) ∧ x.attrType = a.attrType ∧
    (a.attrType = .STRING → cInt x.attrValue.strlen ≤ a.attrLen)

/-! ## `firstNamed` -/

section Lookup

variable {attrList : List AttrInfo} {name : String}

theorem firstNamed_some {j : Nat} {x : AttrInfo} (h : firstNamed attrList name = some (j, x)) :
    attrList[j]? = some x ∧ x.attrName = name :=
  ⟨List.mem_enum_iff_getElem?.1 (List.mem_of_find?_eq_some h), by simpa using List.find?_some h⟩

theorem firstNamed_eq_none : firstNamed attrList name = none ↔ ∀ x ∈ attrList, x.attrName ≠ name := by
  unfold firstNamed
  rw [List.find?_eq_none]
  constructor
  · intro h x hx hn
    obtain ⟨i, hi⟩ := List.mem_iff_getElem?.1 hx
    exact h (i, x) (List.mem_enum_iff_getElem?.2 hi) (by simpa using hn)
  · intro h e he hn
    exact h e.2 (List.getElem?_mem (List.mem_enum_iff_getElem?.1 he)) (by simpa using hn)

/-- Entries found for two names at one index have one name. -/
theorem firstNamed_index {name' : String} {j : Nat} {x x' : AttrInfo} (h : firstNamed attrList name = some (j, x))
    (h' : firstNamed attrList name' = some (j, x')) : name = name' := by
  obtain ⟨hx, rfl⟩ := firstNamed_some h
  obtain ⟨hx', rfl⟩ := firstNamed_some h'
  rw [hx] at hx'
  cases hx'
  rfl

end Lookup

/-- The text of the first entry of `attrList` named like `a`; empty when there is none. -/
def valueOf (attrList : List AttrInfo) (a : AttrDesc) : CStr :=
  match firstNamed attrList a.attrName with
  | some (_, x) => x.attrValue
  | none => ⟨[], List.not_mem_nil 0⟩

/-- The record once the values of `attrs` are copied into `rec`, in order. -/
def writeFields (atofBits : CStr → UInt32) (attrList : List AttrInfo) : List AttrDesc → List UInt8 → List UInt8
  | [], rec => rec
  | a :: attrs, rec =>
    writeFields atofBits attrList attrs (memcpyAt rec a.attrOffset.toNat (fieldBytes atofBits a (valueOf attrList a)))

/-! ## The loop -/

section Loop

variable {atofBits : CStr → UInt32} {attrList : List AttrInfo}

/-- The loop fails with a status of its own, never with OK. -/
theorem encodeAttrs_ne_ok : ∀ {attrs : List AttrDesc} {used : Nat → Bool} {rec : List UInt8},
    encodeAttrs atofBits attrList attrs used rec ≠ .error .OK
  | [], _, _ => by simp [encodeAttrs]
  | a :: attrs, used, rec => by
    simp only [encodeAttrs]
    split
    · simp
    · repeat' split
      all_goals first | exact encodeAttrs_ne_ok | simp

/-- Every attribute the loop got past was accepted. -/
theorem encodeAttrs_accepts : ∀ {attrs : List AttrDesc} {used : Nat → Bool} {rec data : List UInt8},
    encodeAttrs atofBits attrList attrs used rec = .ok data → ∀ a ∈ attrs, Accepts attrList a
  | [], _, _, _, _ => fun _ h => absurd h (List.not_mem_nil _)
  | a :: attrs, used, rec, data, h => by
    simp only [encodeAttrs] at h
    split at h
    · cases h
    next j x hf =>
      split at h
      · cases h
      split at h
      · cases h
      next ht =>
        split at h
        · cases h
        next hs =>
          intro b hb
          rcases List.mem_cons.1 hb with rfl | hb
          · exact ⟨j, x, hf, not_not.1 ht, fun hst => Int.not_lt.1 fun hgt => hs ⟨hst, hgt⟩⟩
          · exact encodeAttrs_accepts h b hb

/-- On attributes with distinct names, all accepted, and entries not yet taken,
the loop copies each value in turn. -/
theorem encodeAttrs_eq : ∀ {attrs : List AttrDesc} {used : Nat → Bool} {rec : List UInt8},
    (attrs.map (·.attrName)).Nodup → (∀ a ∈ attrs, Accepts attrList a) →
    (∀ a ∈ attrs, ∀ j x, firstNamed attrList a.attrName = some (j, x) → used j = false) →
    encodeAttrs atofBits attrList attrs used rec = .ok (writeFields atofBits attrList attrs rec)
  | [], _, _, _, _, _ => rfl
  | a :: attrs, used, rec, hnd, hacc, hused => by
    rw [List.map_cons, List.nodup_cons] at hnd
    obtain ⟨j, x, hf, ht, hs⟩ := hacc a (List.mem_cons_self _ _)
    have hv : valueOf attrList a = x.attrValue := by simp only [valueOf, hf]
    have hs' : ¬ (a.attrType = .STRING ∧ cInt x.attrValue.strlen > a.attrLen) := fun h => by
      have := hs h.1; omega
    simp only [encodeAttrs, hf, hused a (List.mem_cons_self _ _) j x hf, ht, ne_eq, not_true_eq_false, if_false,
      Bool.false_eq_true, hs', writeFields, hv]
    refine encodeAttrs_eq hnd.2 (fun b hb => hacc b (List.mem_cons_of_mem _ hb)) fun b hb j' x' hf' => ?_
    have hj : j' ≠ j := fun e => hnd.1 (by
      rw [firstNamed_index hf (e ▸ hf')]; exact List.mem_map_of_mem _ hb)
    rw [Function.update_noteq hj]
    exact hused b (List.mem_cons_of_mem _ hb) j' x' hf'

/-- On a relation whose attribute names are distinct, with as many entries in
the list and texts shorter than 2^31 bytes, every attribute is accepted exactly
when the list matches the relation. -/
theorem accepts_iff_match {attrs : List AttrDesc} (hnd : (attrs.map (·.attrName)).Nodup)
    (hlen : attrList.length = attrs.length) (htext : ∀ x ∈ attrList, x.attrValue.strlen < 2 ^ 31) :
    (∀ a ∈ attrs, Accepts attrList a) ↔ AttrsMatch attrs attrList := by
  have hc : ∀ x ∈ attrList, cInt x.attrValue.strlen = x.attrValue.strlen := fun x hx =>
    cInt_of_fits (by omega) (by have := htext x hx; omega)
  constructor
  · intro hacc
    have hsub : attrs.map (·.attrName) ⊆ attrList.map (·.attrName) := fun n hn => by
      obtain ⟨a, ha, rfl⟩ := List.mem_map.1 hn
      obtain ⟨j, x, hf, -, -⟩ := hacc a ha
      obtain ⟨hx, hxn⟩ := firstNamed_some hf
      exact List.mem_map.2 ⟨x, List.getElem?_mem hx, hxn⟩
    have hperm : (attrList.map (·.attrName)).Perm (attrs.map (·.attrName)) :=
      ((List.subperm_of_subset hnd hsub).perm_of_length_le (by simp [hlen])).symm
    refine ⟨hperm, fun a ha x hx hxn => ?_⟩
    obtain ⟨j, y, hf, ht, hs⟩ := hacc a ha
    obtain ⟨hy, hyn⟩ := firstNamed_some hf
    obtain rfl : x = y :=
      List.inj_on_of_nodup_map (hperm.nodup_iff.2 hnd) hx (List.getElem?_mem hy) (hxn.trans hyn.symm)
    exact ⟨ht, fun hst => hc x hx ▸ hs hst⟩
  · rintro ⟨hperm, hty⟩ a ha
    obtain ⟨y, hy, hyn⟩ := List.mem_map.1 (hperm.symm.subset (List.mem_map_of_mem _ ha))
    cases hf : firstNamed attrList a.attrName with
    | none => exact absurd hyn (firstNamed_eq_none.1 hf y hy)
    | some p =>
      obtain ⟨j, x⟩ := p
      obtain ⟨hx, hxn⟩ := firstNamed_some hf
      obtain ⟨ht, hs⟩ := hty a ha x (List.getElem?_mem hx) hxn
      exact ⟨j, x, hf, ht, fun hst => (hc x (List.getElem?_mem hx)).symm ▸ hs hst⟩

end Loop

/-! ## The record's bytes -/

section Record

variable {atofBits : CStr → UInt32} {attrList : List AttrInfo}

/-- Byte `i` is one that the copy of `a`'s value writes. -/
def Writes (atofBits : CStr → UInt32) (attrList : List AttrInfo) (a : AttrDesc) (i : Nat) : Prop :=
  a.attrOffset.toNat ≤ i ∧ i < a.attrOffset.toNat + (fieldBytes atofBits a (valueOf attrList a)).length

theorem writeFields_length : ∀ {attrs : List AttrDesc} {rec : List UInt8},
    (∀ a ∈ attrs, a.attrOffset.toNat + (fieldBytes atofBits a (valueOf attrList a)).length ≤ rec.length) →
    (writeFields atofBits attrList attrs rec).length = rec.length
  | [], _, _ => rfl
  | a :: attrs, rec, hin => by
    have h₀ := hin a (List.mem_cons_self _ _)
    rw [writeFields, writeFields_length fun b hb => (memcpyAt_length h₀).symm ▸ hin b (List.mem_cons_of_mem _ hb),
      memcpyAt_length h₀]

/-- A byte no copy writes keeps the buffer's. -/
theorem writeFields_getElem?_out : ∀ {attrs : List AttrDesc} {rec : List UInt8} {i : Nat},
    (∀ a ∈ attrs, a.attrOffset.toNat + (fieldBytes atofBits a (valueOf attrList a)).length ≤ rec.length) →
    (∀ a ∈ attrs, ¬ Writes atofBits attrList a i) → (writeFields atofBits attrList attrs rec)[i]? = rec[i]?
  | [], _, _, _, _ => rfl
  | a :: attrs, rec, i, hin, hout => by
    have h₀ := hin a (List.mem_cons_self _ _)
    rw [writeFields,
      writeFields_getElem?_out (fun b hb => (memcpyAt_length h₀).symm ▸ hin b (List.mem_cons_of_mem _ hb))
        (fun b hb => hout b (List.mem_cons_of_mem _ hb)), memcpyAt_getElem? h₀,
      if_neg (show ¬ (_ ∧ _) from hout a (List.mem_cons_self _ _))]

/-- A byte the copy of `a` writes, and no later one, holds `a`'s value. -/
theorem writeFields_getElem?_in : ∀ {attrs : List AttrDesc} {rec : List UInt8} {a : AttrDesc} {i : Nat},
    (∀ b ∈ attrs, b.attrOffset.toNat + (fieldBytes atofBits b (valueOf attrList b)).length ≤ rec.length) →
    attrs.Pairwise (fun b c => ∀ i, Writes atofBits attrList b i → ¬ Writes atofBits attrList c i) →
    a ∈ attrs → Writes atofBits attrList a i →
    (writeFields atofBits attrList attrs rec)[i]? =
      (fieldBytes atofBits a (valueOf attrList a))[i - a.attrOffset.toNat]?
  | [], _, _, _, _, _, ha, _ => absurd ha (List.not_mem_nil _)
  | b :: attrs, rec, a, i, hin, hpw, ha, hw => by
    have h₀ := hin b (List.mem_cons_self _ _)
    have hin' := fun c hc => (memcpyAt_length h₀).symm ▸ hin c (List.mem_cons_of_mem _ hc)
    rw [List.pairwise_cons] at hpw
    rw [writeFields]
    by_cases hab : a = b
    · subst hab
      rw [writeFields_getElem?_out hin' fun c hc => hpw.1 c hc i hw, memcpyAt_getElem? h₀,
        if_pos (show _ ∧ _ from hw)]
    · exact writeFields_getElem?_in hin' hpw.2 (List.mem_of_ne_of_mem hab ha) hw

/-- An accepted attribute whose INTEGER or FLOAT value has room for four bytes
gets a copy inside it, when its text is shorter than 2^31 bytes. -/
theorem fieldBytes_length_le {a : AttrDesc} (hint : a.attrType = .INTEGER → a.attrLen = 4)
    (hfl : a.attrType = .FLOAT → 4 ≤ a.attrLen) (hacc : Accepts attrList a)
    (htext : ∀ x ∈ attrList, x.attrValue.strlen < 2 ^ 31) :
    0 ≤ a.attrLen ∧ (fieldBytes atofBits a (valueOf attrList a)).length ≤ a.attrLen.toNat := by
  obtain ⟨j, x, hf, -, hs⟩ := hacc
  have hv : valueOf attrList a = x.attrValue := by simp only [valueOf, hf]
  rw [hv]
  unfold fieldBytes
  split
  · next ht => have := hint ht; simp only [intBytes_length]; omega
  · next ht => have := hfl ht; simp only [intBytes_length]; omega
  · next ht =>
    have hx := htext x (List.getElem?_mem (firstNamed_some hf).1)
    have hs := hs ht
    rw [cInt_of_fits (by omega) (by omega)] at hs ⊢
    simp only [List.length_take, CStr.strlen] at hs ⊢
    omega

/-- On a relation as the catalog describes it, whose FLOAT attributes have room
for four bytes, with every attribute accepted and texts shorter than 2^31 bytes,
each copy lands inside the record. -/
theorem writeFields_inside {attrs : List AttrDesc} (hS : SchemaOk attrs)
    (hfl : ∀ a ∈ attrs, a.attrType = .FLOAT → 4 ≤ a.attrLen) (hacc : ∀ a ∈ attrs, Accepts attrList a)
    (htext : ∀ x ∈ attrList, x.attrValue.strlen < 2 ^ 31) :
    ∀ b ∈ attrs, b.attrOffset.toNat + (fieldBytes atofBits b (valueOf attrList b)).length ≤ (recLen attrs).toNat :=
  fun b hb => by
    have := @fieldBytes_length_le atofBits _ _ (hS.int4 b hb) (hfl b hb) (hacc b hb) htext
    have := hS.inside b hb
    omega

/-- Under the same conditions each attribute's bytes in the record are its
value's, padded with zeros. -/
theorem writeFields_field {attrs : List AttrDesc} (hS : SchemaOk attrs)
    (hfl : ∀ a ∈ attrs, a.attrType = .FLOAT → 4 ≤ a.attrLen) (hacc : ∀ a ∈ attrs, Accepts attrList a)
    (htext : ∀ x ∈ attrList, x.attrValue.strlen < 2 ^ 31) {a : AttrDesc} (ha : a ∈ attrs) :
    ((writeFields atofBits attrList attrs (List.replicate (recLen attrs).toNat 0)).drop a.attrOffset.toNat).take
        a.attrLen.toNat = fieldBytes atofBits a (valueOf attrList a) ++
      List.replicate (a.attrLen.toNat - (fieldBytes atofBits a (valueOf attrList a)).length) 0 := by
  have hle := fun b (hb : b ∈ attrs) =>
    @fieldBytes_length_le atofBits _ _ (hS.int4 b hb) (hfl b hb) (hacc b hb) htext
  have hwin : ∀ b ∈ attrs, ∀ i, Writes atofBits attrList b i →
      b.attrOffset ≤ (i : Int) ∧ (i : Int) < b.attrOffset + b.attrLen := fun b hb i hw => by
    have := hle b hb; have := hS.inside b hb; unfold Writes at hw; omega
  have hin : ∀ b ∈ attrs, b.attrOffset.toNat + (fieldBytes atofBits b (valueOf attrList b)).length ≤
      (List.replicate (recLen attrs).toNat (0 : UInt8)).length := fun b hb => by
    rw [List.length_replicate]; exact writeFields_inside hS hfl hacc htext b hb
  have hpw : attrs.Pairwise fun b c => ∀ i, Writes atofBits attrList b i → ¬ Writes atofBits attrList c i :=
    hS.disjoint.imp_of_mem fun hb hc hd i hwb hwc => by
      have h₁ := hwin _ hb i hwb; have h₂ := hwin _ hc i hwc; have := hd i h₁.1 h₁.2; omega
  refine List.ext_getElem? fun k => ?_
  have ⟨hlen₀, hlen⟩ := hle a ha
  have hoff := hS.inside a ha
  rw [List.getElem?_take, List.getElem?_drop]
  by_cases hk : k < (fieldBytes atofBits a (valueOf attrList a)).length
  · rw [if_pos (by omega), writeFields_getElem?_in hin hpw ha (by unfold Writes; omega),
      List.getElem?_append_left hk]
    congr 1; omega
  · rw [List.getElem?_append_right (by omega), List.getElem?_replicate]
    split
    · rw [writeFields_getElem?_out hin fun b hb hw => ?_, List.getElem?_replicate, if_pos (by omega),
        if_pos (by omega)]
      by_cases hab : b = a
      · subst hab; unfold Writes at hw; omega
      · have hd := hS.disjoint.forall (fun _ _ h => h.symm) ha hb (Ne.symm hab)
        have := hwin b hb _ hw
        have := hd (a.attrOffset.toNat + k : Nat) (by omega) (by omega)
        omega
    · rw [if_neg (by omega)]

end Record

/-! ## `QU_Insert` -/

section Insert

variable {atofBits : CStr → UInt32} {G : Geom} {cat : Catalog} {relation : String} {attrs : List AttrDesc}
  {attrList : List AttrInfo}

/-- A list that does not match the relation, with texts shorter than 2^31 bytes,
is rejected before anything is touched: `QU_Insert` returns an error and the
world is as it was. -/
theorem quInsert_rejects (hcat : cat.getRelInfo relation = .ok attrs) (hnd : (attrs.map (·.attrName)).Nodup)
    (htext : ∀ x ∈ attrList, x.attrValue.strlen < 2 ^ 31) (hno : ¬ AttrsMatch attrs attrList) (w : World) :
    (quInsert atofBits G cat w relation attrList).1 ≠ .OK ∧ (quInsert atofBits G cat w relation attrList).2 = w := by
  unfold quInsert
  split
  · exact ⟨by simp, rfl⟩
  rw [hcat]
  dsimp only
  split
  · exact ⟨by simp, rfl⟩
  next hlen =>
    split
    · exact ⟨by simp, rfl⟩
    split
    · next e he => exact ⟨fun h => encodeAttrs_ne_ok ((show e = Status.OK from h) ▸ he), rfl⟩
    · next data he =>
      exact absurd ((accepts_iff_match hnd (not_not.1 hlen) htext).1 (encodeAttrs_accepts he)) hno

/-- A list that matches the relation, with a record that fits on a page and the
relation's heap file well formed in a settled pool with three free frames: the
loop copies every value, and `QU_Insert` returns OK, having appended the record
to the file; the pool is settled again, with the pins it had. -/
theorem quInsert_appends (hrel : relation ≠ "") (hcat : cat.getRelInfo relation = .ok attrs) (hS : SchemaOk attrs)
    (hfl : ∀ a ∈ attrs, a.attrType = .FLOAT → 4 ≤ a.attrLen) (htext : ∀ x ∈ attrList, x.attrValue.strlen < 2 ^ 31)
    (hm : AttrsMatch attrs attrList) (hfit : (recLen attrs).toNat ≤ G.cap) {w : World} {f : FileId} {us : List Nat}
    {ps : List Int} {recs : List (RID × Record)} (hSet : Settled f us w) (hnd : us.Nodup) (h3 : 3 ≤ us.length)
    (hopen : w.db.openFile relation = .ok f) (hL : Layout w f ps recs) :
    ∃ rid ps' w', quInsert atofBits G cat w relation attrList = (.OK, w') ∧
      Layout w' f ps' (recs ++ [(rid, ⟨writeFields atofBits attrList attrs (List.replicate (recLen attrs).toNat 0)⟩)]) ∧
      Settled f us w' ∧ pinOf w'.pool = pinOf w.pool := by
  have hlen : attrList.length = attrs.length := by simpa using hm.1.length_eq
  have hacc := (accepts_iff_match hS.names hlen htext).2 hm
  have hin := @writeFields_inside atofBits _ _ hS hfl hacc htext
  have hpos : 0 ≤ recLen attrs := by
    cases attrs with
    | nil => decide
    | cons a _ =>
      have := (@fieldBytes_length_le atofBits _ _ (hS.int4 a (List.mem_cons_self _ _))
        (hfl a (List.mem_cons_self _ _)) (hacc a (List.mem_cons_self _ _)) htext).1
      have := hS.inside a (List.mem_cons_self _ _)
      omega
  have he := @encodeAttrs_eq atofBits _ _ _ (List.replicate (recLen attrs).toNat 0) hS.names hacc
    fun _ _ _ _ _ => rfl
  have hdl : (writeFields atofBits attrList attrs (List.replicate (recLen attrs).toNat 0)).length ≤ G.cap := by
    rw [writeFields_length (by simpa using hin), List.length_replicate]; exact hfit
  obtain ⟨s, w1, hn, hI, -⟩ := InsertFileScan.new_insAt hSet hnd h3 hopen hL
  obtain ⟨rid, s2, w2, ps', hr, -, hI2, -⟩ := hI.insertRecord hnd h3
    (show Record.length ⟨writeFields atofBits attrList attrs (List.replicate (recLen attrs).toNat 0)⟩ ≤ G.cap from hdl)
  obtain ⟨hS2, hpin, -, hL2⟩ := hI2.destructor
  refine ⟨rid, ps', s2.destructor w2, ?_, hL2, hS2, hpin⟩
  simp only [quInsert, hrel, hcat, hlen, he, hn, hr, ne_eq, not_true_eq_false, if_false, Int.not_lt.2 hpos,
    statusOf]

/-- On the record the loop builds for a matching list, `matchRec` with EQ and a
filter that `QU_Select` or `QU_Delete` builds for one of the relation's
attributes from a text shorter than 2^31 bytes accepts exactly when the
inserted value has the text's `atoi` (INTEGER), or is the text (STRING). -/
theorem encoded_matchRec (hcat : cat.getRelInfo relation = .ok attrs) (hS : SchemaOk attrs)
    (hfl : ∀ a ∈ attrs, a.attrType = .FLOAT → 4 ≤ a.attrLen) (htext : ∀ x ∈ attrList, x.attrValue.strlen < 2 ^ 31)
    (hm : AttrsMatch attrs attrList) {a : AttrDesc} (ha : a ∈ attrs) {x : AttrInfo} (hx : x ∈ attrList)
    (hxn : x.attrName = a.attrName) {type : Datatype} {v : CStr} {d : AttrDesc} {flt : List UInt8}
    (hv : v.strlen < 2 ^ 31) (hb : buildFilter atofBits cat relation a.attrName type v = .ok (d, flt))
    {s : HeapFileScan} (ho : s.offset = d.attrOffset) (hl : s.length = d.attrLen) (ht : s.type = d.attrType)
    (hf : s.filter = some flt) (hop : s.op = .EQ) :
    let r : Record := ⟨writeFields atofBits attrList attrs (List.replicate (recLen attrs).toNat 0)⟩
    (a.attrType = .INTEGER → (s.matchRec r = true ↔ atoi x.attrValue = atoi v)) ∧
      (a.attrType = .STRING → (s.matchRec r = true ↔ x.attrValue = v)) := by
  intro r
  obtain ⟨hd, -, hfi, hfs⟩ := buildFilter_ok hb hv
  obtain rfl : d = a := (Catalog.getInfo_eq hcat hS.names ha).1 hd
  have hlen : attrList.length = attrs.length := by simpa using hm.1.length_eq
  have hacc := (accepts_iff_match hS.names hlen htext).2 hm
  have hval : valueOf attrList d = x.attrValue := by
    obtain ⟨j, y, hj, -, -⟩ := hacc d ha
    obtain ⟨hy, hyn⟩ := firstNamed_some hj
    obtain rfl : x = y :=
      List.inj_on_of_nodup_map (hm.1.nodup_iff.2 hS.names) hx (List.getElem?_mem hy) (hxn.trans hyn.symm)
    simp only [valueOf, hj]
  have hfield := @writeFields_field atofBits _ _ hS hfl hacc htext _ ha
  rw [hval] at hfield
  have hrl : r.length = (recLen attrs).toNat :=
    (writeFields_length (by simpa using writeFields_inside hS hfl hacc htext)).trans (List.length_replicate _ _)
  have hin := hS.inside d ha
  have hr := (cInt_range (attrs.map (·.attrLen)).sum).2
  have hl0 := (@fieldBytes_length_le atofBits _ _ (hS.int4 d ha) (hfl d ha) (hacc d ha) htext).1
  unfold recLen at hrl hin
  constructor
  · intro hti
    have h4 := hS.int4 d ha hti
    rw [h4] at hfield
    rw [matchRec_eq_int (hf.trans (congrArg some (hfi hti))) (ht.trans hti) (hl.trans h4) hop (ho ▸ hin.1)
      (by rw [ho, hrl]; omega) (by rw [hrl]; omega) (by simpa [ho, fieldBytes, hti] using hfield)
      (atoi_range _) (atoi_range _)]
    simp
  · intro hts
    have hxl := (hm.2 d ha x hx hxn).2 hts
    have hc : cInt x.attrValue.strlen = x.attrValue.strlen := cInt_of_fits (by omega) (by have := htext x hx; omega)
    have hxc : x.attrValue.chars.take (cInt x.attrValue.strlen).toNat = x.attrValue.chars := by
      rw [hc]; exact List.take_of_length_le (by simp [CStr.strlen])
    have hslice : (r.data.drop s.offset.toNat).take d.attrLen.toNat = x.attrValue.padded d.attrLen.toNat := by
      rw [ho]; simp only [fieldBytes, hts, hxc] at hfield; exact hfield
    rw [matchRec_eq_string (hf.trans (congrArg some (hfs hts).2)) (ht.trans hts) (by rw [hl]; omega) hop
      (ho ▸ hin.1) (by rw [ho, hrl]; omega) (by rw [hrl]; omega) hslice ((Int.le_toNat hl0).2 hxl)
      ((Int.le_toNat hl0).2 (hfs hts).1)]
    simp

end Insert

/-- The relation name `""`: `QU_Insert` returns BADCATPARM before it asks the
catalog (insert.C:31-32), although the catalog describes a relation of that
name and the list matches it. -/
theorem quInsert_empty_relation :
    let attrs : List AttrDesc := [⟨"", "a", 0, .INTEGER, 4⟩]
    let attrList : List AttrInfo := [⟨"", "a", .INTEGER, ⟨[49], by decide⟩⟩]
    SchemaOk attrs ∧ AttrsMatch attrs attrList ∧
      ∀ (atofBits : CStr → UInt32) (G : Geom) (w : World),
        quInsert atofBits G ⟨fun _ => .ok attrs⟩ w "" attrList = (.BADCATPARM, w) :=
  ⟨⟨by decide, by decide, .cons (fun _ h => absurd h (List.not_mem_nil _)) .nil, by decide⟩, ⟨by decide, by decide⟩,
    fun _ _ _ => rfl⟩

/-- A FLOAT attribute `a` of two bytes at offset 0, after a STRING attribute `b`
of two bytes at offset 2 in the catalog's order: `QU_Insert` copies the four
bytes of the `float` 1.0 whatever `attrLen` is (insert.C:100-102), over `b`.
The relation meets the schema's conditions and the list matches, but the
record holds `(0, 0, 128, 63)`, and the filter `QU_Select` builds from `"xy"`
on `b` rejects the record inserted with `b = "xy"`. -/
theorem quInsert_float_overwrites :
    let attrs : List AttrDesc := [⟨"r", "b", 2, .STRING, 2⟩, ⟨"r", "a", 0, .FLOAT, 2⟩]
    let attrList : List AttrInfo :=
      [⟨"r", "b", .STRING, ⟨[120, 121], by decide⟩⟩, ⟨"r", "a", .FLOAT, ⟨[49], by decide⟩⟩]
    let cat : Catalog := ⟨fun _ => .ok attrs⟩
    SchemaOk attrs ∧ AttrsMatch attrs attrList ∧
      encodeAttrs (fun _ => 0x3F800000) attrList attrs (fun _ => false) (List.replicate (recLen attrs).toNat 0) =
        .ok [0, 0, 128, 63] ∧
      ∃ d flt, buildFilter (fun _ => 0x3F800000) cat "r" "b" .STRING ⟨[120, 121], by decide⟩ = .ok (d, flt) ∧
        ∀ s : HeapFileScan, s.offset = d.attrOffset → s.length = d.attrLen → s.type = d.attrType →
          s.filter = some flt → s.op = .EQ → s.matchRec ⟨[0, 0, 128, 63]⟩ = false := by
  intro attrs attrList cat
  refine ⟨⟨by decide, by decide, .cons (fun _ hb x h₁ h₂ => by simp at hb; subst hb; simp at h₁ h₂ ⊢; omega)
      (.cons (fun _ h => absurd h (List.not_mem_nil _)) .nil), by decide⟩, ⟨by decide, by decide⟩, by decide,
    ⟨"r", "b", 2, .STRING, 2⟩, [120, 121], by decide, fun s h₁ h₂ h₃ h₄ h₅ => ?_⟩
  rw [HeapFileScan.matchRec_eq_selects, h₁, h₂, h₃, h₄, h₅]
  decide

/-- A run of a character other than NUL is a C string. -/
theorem noNul_replicate (n : Nat) {c : UInt8} (hc : c ≠ 0) : 0 ∉ List.replicate n c := fun h =>
  hc (List.mem_replicate.1 h).2.symm

/-- A text of 2^32 + 1 characters for a STRING attribute of three bytes:
`int len = strlen(value)` wraps to 1 (insert.C:106), so the length check
passes. The list does not match the relation, yet `QU_Insert` copies the text's
first character into the record `(120, 0, 0)` and inserts it into `t`, and
returns OK. -/
theorem quInsert_text_wraps :
    let attrs : List AttrDesc := [⟨"t", "a", 0, .STRING, 3⟩]
    let attrList : List AttrInfo :=
      [⟨"t", "a", .STRING, ⟨List.replicate (2 ^ 32 + 1) 120, noNul_replicate _ (by decide)⟩⟩]
    SchemaOk attrs ∧ ¬ AttrsMatch attrs attrList ∧
      encodeAttrs (fun _ => 0) attrList attrs (fun _ => false) (List.replicate (recLen attrs).toNat 0) =
        .ok [120, 0, 0] ∧
      (quInsert (fun _ => 0) ⟨100, 4⟩ ⟨fun _ => .ok attrs⟩ twoPageWorld "t" attrList).1 = .OK := by
  intro attrs attrList
  have hwrap : cInt ((List.replicate (2 ^ 32 + 1) (120 : UInt8)).length : Nat) = 1 := by
    rw [List.length_replicate]; decide
  have he : encodeAttrs (fun _ => 0) attrList attrs (fun _ => false) (List.replicate (recLen attrs).toNat 0) =
      .ok [120, 0, 0] := by
    simp only [encodeAttrs, attrs, attrList, firstNamed, List.enum_singleton, List.find?_singleton, beq_self_eq_true,
      cond_true, if_true, if_false, ne_eq, not_true_eq_false, not_false_eq_true, true_and, Bool.false_eq_true,
      CStr.strlen, hwrap, fieldBytes, show ¬ (1 : Int) > 3 by decide, show (1 : Int).toNat = 1 from rfl,
      List.take_replicate, show (1 ⊓ (2 ^ 32 + 1) : Nat) = 1 by decide]
    decide
  refine ⟨⟨by decide, by decide, .cons (fun _ h => absurd h (List.not_mem_nil _)) .nil, by decide⟩, fun h => ?_, he, ?_⟩
  · have hlen := (h.2 _ (List.mem_singleton_self _) _ (List.mem_singleton_self _) rfl).2 rfl
    simp only [CStr.strlen, List.length_replicate] at hlen
    omega
  · simp only [quInsert, he, attrList, List.length_singleton]
    decide

end Minirel
