import Minirel.Heap.Insert

/-!
# The other heap-file version: files and handles (`src/unnamed/part_001:1-222`)

`src/unnamed/part_001` is a second implementation of `heapfile.C`, over the same
`heapfile.h`, buffer manager and DB layer. Its functions keep the members of
`HeapFile` (the structure of `Minirel.Heap.HeapFile`) but differ from stage4's:

* `createHeapFile` rejects an empty name, writes the header only after both
  pages are allocated, counts the header page in `pageCnt` (2 for a new file),
  and unpins what it pinned on every failure;
* the `HeapFile` constructor rejects a negative header page number, does not
  read a data page when `firstPage` is -1, and on a failed read of the first
  data page unpins the header page and leaves `filePtr` NULL;
* the destructor unpins only what the handle points to;
* `getRecord` rejects a negative page number or slot 0 with BADRID, and moves
  `curPageNo` together with `curPage`, before the page's lookup.

The definitions carry a `Part1.` prefix; `db.closeFile` and `getFirstPage`
succeed, as for stage4. `InsertFileScan::insertRecord` is cut off after its
length check (part_001:479-489): the body falls off the end of a function that
returns a value, so it is not modelled.
-/
namespace Minirel

/-! ## Creating a heap file -/

/-- The part of `createHeapFile` after the file is open (part_001:33-77):
allocate the header page and the first data page, format both, unpin both
dirty; on a failure, unpin what is pinned. -/
def Part1.formatHeapFile (w : World) (file : FileId) : Status × World :=
  match w.allocPage (some file) with
  | (.error e, w1) => (e, w1)
  | (.ok (hdrPageNo, hdrFrame), w1) =>
    match w1.allocPage (some file) with
    | (.error e, w2) => (e, (w2.unPinPage (some file) hdrPageNo false).2)
    | (.ok (dataPageNo, dataFrame), w2) =>
      let w3 := w2.setFrame dataFrame (.data (DataPage.init dataPageNo))
      let w4 := w3.setFrame hdrFrame (.hdr ⟨2, 0, dataPageNo, dataPageNo⟩)
      match w4.unPinPage (some file) dataPageNo true with
      | (.OK, w5) => w5.unPinPage (some file) hdrPageNo true
      | (e, w5) => (e, (w5.unPinPage (some file) hdrPageNo true).2)

/-- mirrors part_001:5-78 (`createHeapFile`); `db.closeFile` succeeds. -/
def Part1.createHeapFile (w : World) (fileName : String) : Status × World :=
  if fileName.isEmpty then (.BADFILE, w)
  else
    match w.db.openFile fileName with
    | .ok _ => (.FILEEXISTS, w)
    | .error st =>
      if st ≠ .UNIXERR then (st, w)
      else
        match w.db.createFile fileName with
        | (.OK, db1) =>
          match db1.openFile fileName with
          | .ok file => Part1.formatHeapFile { w with db := db1 } file
          | .error e => (e, { w with db := db1 })
        | (e, db1) => (e, { w with db := db1 })

/-! ## Opening and closing -/

/-- The rest of the constructor once the header page is pinned in frame `hp`
(part_001:125-145): read the first data page unless `firstPage` is -1; if that
read fails, unpin the header page and give up the file. -/
def Part1.HeapFile.readFirst (h : HeapFile) (w : World) : Status × HeapFile × World :=
  if (h.hdr w).firstPage ≠ -1 then
    match w.readPage h.filePtr (h.hdr w).firstPage with
    | (.error e, w1) =>
      (e, { h with headerPage := none, filePtr := none }, (w1.unPinPage h.filePtr h.headerPageNo false).2)
    | (.ok cp, w1) => (.OK, { h with curPage := some cp, curPageNo := (h.hdr w).firstPage, curDirtyFlag := false }, w1)
  else (.OK, h, w)

/-- mirrors part_001:86-146 (`HeapFile::HeapFile`); returns `returnStatus`. The
member initializers are those of `HeapFile.initial`. -/
def Part1.HeapFile.new (w : World) (fileName : String) : Status × HeapFile × World :=
  match w.db.openFile fileName with
  | .error e => (e, HeapFile.initial, w)
  | .ok file =>
    let h : HeapFile := { HeapFile.initial with filePtr := some file, headerPageNo := w.db.getFirstPage file }
    if h.headerPageNo < 0 then (.BADPAGENO, { h with filePtr := none }, w)
    else
      match w.readPage h.filePtr h.headerPageNo with
      | (.error e, w1) => (e, { h with filePtr := none }, w1)
      | (.ok hp, w1) =>
        Part1.HeapFile.readFirst { h with headerPage := some hp, hdrDirtyFlag := false, curRec := NULLRID } w1


/-- Unpin the current page if there is one (part_001:157-164, 201-204, 305-308). -/
def Part1.HeapFile.unpinCur (h : HeapFile) (w : World) : Status × World :=
  match h.curPage with
  | some _ => w.unPinPage h.filePtr h.curPageNo h.curDirtyFlag
  | none => (.OK, w)

/-- mirrors part_001:149-183 (`HeapFile::~HeapFile`): nothing without a file;
otherwise unpin the current page if there is one, then the header page if
there is one. The statuses are only printed. -/
def Part1.HeapFile.destructor (h : HeapFile) (w : World) : World :=
  match h.filePtr with
  | none => w
  | some _ =>
    let w1 := (Part1.HeapFile.unpinCur h w).2
    match h.headerPage with
    | some _ => (w1.unPinPage h.filePtr h.headerPageNo h.hdrDirtyFlag).2
    | none => w1

/-- mirrors part_001:187 -/
def Part1.HeapFile.getRecCnt (h : HeapFile) (w : World) : Int :=
  match h.headerPage with
  | some _ => (h.hdr w).recCnt
  | none => 0

/-! ## Fetching a record -/

/-- The move of `getRecord` to the RID's page (part_001:200-215): unpin the
current page if there is one and read page `pageNo`; a failed read leaves no
current page (`curPage` NULL, `curPageNo` -1). -/
def Part1.HeapFile.moveTo (h : HeapFile) (w : World) (pageNo : Int) : Status × HeapFile × World :=
  match Part1.HeapFile.unpinCur h w with
  | (.OK, w1) =>
    match w1.readPage h.filePtr pageNo with
    | (.ok cp, w2) => (.OK, { h with curPage := some cp, curPageNo := pageNo, curDirtyFlag := false }, w2)
    | (.error e, w2) => (e, { h with curPage := none, curPageNo := -1, curDirtyFlag := false }, w2)
  | (e, w1) => (e, h, w1)

/-- mirrors part_001:194-222 (`HeapFile::getRecord`) -/
def Part1.HeapFile.getRecord (h : HeapFile) (w : World) (rid : RID) : Except Status Record × HeapFile × World :=
  if rid.pageNo < 0 ∨ rid.slotNo = 0 then (.error .BADRID, h, w)
  else
    let (st, h1, w1) :=
      if h.curPage.isNone ∨ h.curPageNo ≠ rid.pageNo then Part1.HeapFile.moveTo h w rid.pageNo else (.OK, h, w)
    if st ≠ .OK then (.error st, h1, w1)
    else
      match (h1.page w1).getRecord rid with
      | .ok r => (.ok r, { h1 with curRec := rid }, w1)
      | .error e => (.error e, h1, w1)

/-! ## Inserting handles -/

/-- mirrors part_001:462-465 (`InsertFileScan::InsertFileScan`): the `HeapFile`
constructor only. -/
def Part1.InsertFileScan.new (w : World) (name : String) : Status × InsertFileScan × World :=
  let (st, h, w1) := Part1.HeapFile.new w name
  (st, ⟨h⟩, w1)

/-- mirrors part_001:467-476 (`InsertFileScan::~InsertFileScan`): unpin the
current page dirty, then the base destructor. -/
def Part1.InsertFileScan.destructor (s : InsertFileScan) (w : World) : World :=
  match s.curPage with
  | some _ =>
    Part1.HeapFile.destructor { s.toHeapFile with curPage := none, curPageNo := 0 }
      (w.unPinPage s.filePtr s.curPageNo true).2
  | none => Part1.HeapFile.destructor s.toHeapFile w

end Minirel
