import CilPatch.Image.File
import CilPatch.Metadata.CliHeader
import CilPatch.Metadata.StreamHeader
import CilPatch.Report.Code
import CilPatch.Table.Stream

/-!
# Reports on images and metadata

How the headers of an image, its metadata tables and the data sections of its methods stand in a
report. Masks of 64 bits are decimal texts, since other programs may round such numbers.
-/

namespace CilPatch

open Report

instance : Reported Extent := ⟨fun extent => report [extent.rva, extent.size]⟩

instance : Reported CliHeader := ⟨fun header => .record [
  field "cb" header.size, field "runtime" [header.major, header.minor],
  field "metadata" header.metadata, field "flags" header.flags,
  field "entry" header.entryPoint, field "resources" header.resources,
  field "strong_name" header.strongName, field "signed" header.isSigned]⟩

instance : Reported StreamHeader := ⟨fun header =>
  .list [report header.offset, report header.size, report header.name,
    report header.encodedLength]⟩

instance : Reported Clause := ⟨fun clause =>
  .list [report clause.flags, report clause.tryOffset, report clause.tryLength,
    report clause.handlerOffset, report clause.handlerLength, report clause.detail,
    report clause.fitsSmall]⟩

instance : Reported Widths := ⟨fun widths => .record [
  field "large_heaps" ([Widths.largeStrings, Widths.largeGuids, Widths.largeBlobs].map
    widths.hasFlag),
  field "bits" (TableId.all.map widths.rowBits),
  field "large" (TableId.all.filter widths.isLargeRow),
  field "row_sizes" (TableId.all.map widths.rowSize),
  field "coded_bits" (CodedIndex.all.map widths.codedBits),
  field "coded_large" (CodedIndex.all.map widths.isLargeCoded),
  field "total" widths.totalSize]⟩

/-- The tables with rows. -/
def TableStream.filled (stream : TableStream) : List TableId :=
  TableId.all.filter fun table => stream.rowCount table != 0

/-- The header of a table stream and how many rows its tables have. -/
instance : Reported TableStream := ⟨fun stream => .record [
  field "reserved" [report stream.reserved, report stream.reserved2],
  field "version" [report stream.major, report stream.minor], field "heaps" stream.heapSizes,
  field "valid" (toString stream.valid.toNat), field "sorted" (toString stream.sorted.toNat),
  field "extra" stream.extra, field "present" stream.presentCount,
  field "counts" (stream.filled.map fun table =>
    [report table, report (stream.rowCount table)])]⟩

/-- All rows of the tables that have any. -/
def Report.rows (stream : TableStream) : Report :=
  report (stream.filled.map fun table => [report table, report (stream.rows table)])

instance : Reported SectionHeader := ⟨fun header =>
  .list [report header.name, report header.virtualSize, report header.virtualAddress,
    report header.rawSize, report header.rawOffset, report header.characteristics]⟩

/-- The layout of an image and its sections. -/
instance : Reported Image := ⟨fun image => .record [
  field "len" image.size, field "empty" (image.size == 0), field "clr" image.cli,
  field "layout" (Report.record [
    field "pe" image.peOffset, field "coff" image.coffOffset,
    field "optional" [image.optionalOffset, image.optionalSize],
    field "sections" [image.sectionTable, image.sections.length, image.sectionTableEnd],
    field "plus" image.optional.isWide,
    field "alignment" [image.optional.sectionAlignment, image.optional.fileAlignment],
    field "headers" image.optional.headersSize, field "image" image.optional.imageSize,
    field "offsets" [image.sectionCountOffset, image.dataSizeOffset, image.imageSizeOffset,
      image.checksumOffset, image.directoryOffset 14]]),
  field "sections" image.sections]⟩

end CilPatch
