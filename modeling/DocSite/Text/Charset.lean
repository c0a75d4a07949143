import DocSite.Text.Case
import DocSite.Text.CharsetName
import DocSite.Text.Search
import DocSite.Text.UpperHalf

namespace DocSite.Text

/-- A set of characters of which each takes one byte and the lower half is ASCII. -/
structure CodePage where
  /-- The characters of the bytes from 128 on; the replacement character stands for none. -/
  upper : List Char
  /-- The characters of the lower half that are left out. -/
  lacking : List Char

def CodePage.plain : CodePage := ⟨[], []⟩

def CodePage.latin : CodePage := ⟨(List.range 128).map fun n => Char.ofNat (n + 128), []⟩

def CodePage.char? (p : CodePage) (b : UInt8) : Option Char :=
  if b < 128 then
    let c := Char.ofNat b.toNat
    if p.lacking.contains c then none else some c
  else
    match p.upper[b.toNat - 128]? with
    | some c => if c = '�' then none else some c
    | none => none

inductive Charset
  | page (p : CodePage)
  | wide
  /-- One byte a character, but the lower half is not ASCII. -/
  | foreign
  | ruled
  /-- A rule for host names, which starts from ASCII. -/
  | hosts

def plainSets : List String :=
  ["ascii", "iso2022_jp", "iso2022_jp_1", "iso2022_jp_2", "iso2022_jp_2004", "iso2022_jp_3",
    "iso2022_jp_ext", "utf_8", "utf_8_sig"]

def latinSets : List String :=
  ["charmap", "iso8859_1", "latin_1", "raw_unicode_escape", "unicode_escape"]

def wideSets : List String :=
  ["big5", "big5hkscs", "cp932", "cp949", "cp950", "euc_jis_2004", "euc_jisx0213", "euc_jp",
    "euc_kr", "gb18030", "gb2312", "gbk", "iso2022_kr", "johab", "shift_jis", "shift_jis_2004",
    "shift_jisx0213", "utf_16", "utf_16_be", "utf_16_le", "utf_32", "utf_32_be", "utf_32_le",
    "utf_7"]

def foreignSets : List String :=
  ["cp037", "cp1026", "cp1140", "cp273", "cp424", "cp500", "cp864", "cp875", "mac_arabic",
    "mac_farsi"]

def charsetNamed? (name : String) : Option Charset :=
  if plainSets.contains name then some (.page .plain)
  else if latinSets.contains name then some (.page .latin)
  else if name = "hz" then some (.page ⟨[], ['~']⟩)
  else if wideSets.contains name then some .wide
  else if foreignSets.contains name then some .foreign
  else if name = "idna" || name = "undefined" then some .ruled
  else if name = "punycode" then some .hosts
  else
    (upperHalves.find? (·.1 = name)).map fun (_, upper) => .page ⟨upper.toList, []⟩

/-- A name of a set in small letters, with one low line for each run of other signs between
letters, digits and points. -/
def charsetKey (name : List Char) : List Char :=
  let blanked := (lower name).map fun c => if c.isAlphanum || c = '.' then c else ' '
  List.intercalate ['_'] ((splitChar ' ' blanked).filter fun part => !part.isEmpty)

def listedName? (key : String) : Option String :=
  (charsetNames.find? fun (_, names) => names.contains key).map Prod.fst

def charset? (name : List Char) : Option Charset :=
  let key := charsetKey name
  let dotless := key.map fun c => if c = '.' then '_' else c
  let listed :=
    (listedName? (String.ofList key)).orElse fun _ => listedName? (String.ofList dotless)
  (listed.bind charsetNamed?).orElse fun _ => charsetNamed? (String.ofList key)

end DocSite.Text
