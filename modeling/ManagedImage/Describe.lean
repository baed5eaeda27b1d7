/-
A description of an image on one line: its headers field by field, the version
of its runtime, and how many streams and tables it has.
-/
import ManagedImage.Image
import ManagedImage.Text.Quoted

namespace ManagedImage

namespace Describe

/-- A record with a name: its fields between braces. -/
def record (name : String) (fields : List (String × String)) : String :=
  let shown := fields.map fun (field, value) => field ++ ": " ++ value
  name ++ " \x7b " ++ ", ".intercalate shown ++ " \x7d"

/-- A value wrapped in a name. -/
def wrapped (name value : String) : String := name ++ "(" ++ value ++ ")"

/-- A list. -/
def list (items : List String) : String := "[" ++ ", ".intercalate items ++ "]"

/-- An optional value. -/
def optional (value : Option String) : String := value.elim "None" (wrapped "Some")

def stub (h : StubHeader) : String :=
  record "DosHeader" [("e_magic", s!"{h.magic}"), ("e_lfanew", s!"{h.imageOffset}")]

def fileHeader (h : FileHeader) : String :=
  record "CoffHeader"
    [("machine", s!"{h.machine}"),
     ("number_of_sections", s!"{h.sectionCount}"),
     ("time_date_stamp", s!"{h.timestamp}"),
     ("pointer_to_symbol_table", s!"{h.symbolTableOffset}"),
     ("number_of_symbols", s!"{h.symbolCount}"),
     ("size_of_optional_header", s!"{h.optionalHeaderSize}"),
     ("characteristics",
      wrapped "CoffCharacteristics" (Flag.describe FileHeader.flags h.characteristics.toNat))]

def directory (d : DataDirectory) : String :=
  record "DataDirectory" [("virtual_address", s!"{d.rva}"), ("size", s!"{d.size}")]

def optionalHeader (h : OptionalHeader) : String :=
  record "OptionalHeader"
    [("magic", s!"{h.magic}"),
     ("major_linker_version", s!"{h.linkerMajor}"),
     ("minor_linker_version", s!"{h.linkerMinor}"),
     ("size_of_code", s!"{h.codeSize}"),
     ("size_of_initialized_data", s!"{h.initializedDataSize}"),
     ("size_of_uninitialized_data", s!"{h.uninitializedDataSize}"),
     ("address_of_entry_point", s!"{h.entryPoint}"),
     ("base_of_code", s!"{h.codeBase}"),
     ("base_of_data", optional (h.dataBase.map fun base => s!"{base}")),
     ("image_base", s!"{h.imageBase}"),
     ("section_alignment", s!"{h.sectionAlignment}"),
     ("file_alignment", s!"{h.fileAlignment}"),
     ("major_subsystem_version", s!"{h.subsystemMajor}"),
     ("minor_subsystem_version", s!"{h.subsystemMinor}"),
     ("size_of_image", s!"{h.imageSize}"),
     ("size_of_headers", s!"{h.headersSize}"),
     ("check_sum", s!"{h.checksum}"),
     ("subsystem", s!"{h.subsystem}"),
     ("dll_characteristics", s!"{h.libraryCharacteristics}"),
     ("number_of_rva_and_sizes", s!"{h.directoryCount}"),
     ("data_directories", list (h.directories.map directory))]

/-- An entry of the section table. -/
def sectionHeader (s : Section) : String :=
  record "SectionHeader"
    [("name", list (s.rawName.toList.map fun byte => s!"{byte}")),
     ("virtual_size", s!"{s.virtualSize}"),
     ("virtual_address", s!"{s.virtualAddress}"),
     ("size_of_raw_data", s!"{s.rawSize}"),
     ("pointer_to_raw_data", s!"{s.rawOffset}"),
     ("pointer_to_relocations", s!"{s.relocationsOffset}"),
     ("pointer_to_linenumbers", s!"{s.lineNumbersOffset}"),
     ("number_of_relocations", s!"{s.relocationCount}"),
     ("number_of_linenumbers", s!"{s.lineNumberCount}"),
     ("characteristics",
      wrapped "SectionCharacteristics" (Flag.describe Section.flags s.characteristics.toNat))]

def headers (h : Headers) : String :=
  record "PeHeaders"
    [("dos", stub h.stub),
     ("coff", fileHeader h.file),
     ("optional", optionalHeader h.optional),
     ("sections",
      record "SectionTable" [("sections", list (h.sections.sections.map sectionHeader))])]

end Describe

/-- The description of an image. -/
def Image.describe (i : Image) : String :=
  Describe.record "CilImage"
    [("file",
      Describe.record "File"
        [("len", s!"{i.data.size}"), ("headers", Describe.headers i.file.headers)]),
     ("version", Text.quote i.root.version),
     ("streams", s!"{i.streams.length}"),
     ("tables", s!"{i.tables.tableCount}")]

end ManagedImage
