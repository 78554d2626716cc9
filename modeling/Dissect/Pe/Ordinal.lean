/-
The ordinal database: names of functions that libraries export by
number.

# Keys

Libraries are filed under their name in lower case by every operation
that writes. A look-up tries the spelling it was given first and the
lower-case spelling second, so a table that came in under another
spelling is found under that spelling alone.
-/
import Dissect.Json.Parser
import Dissect.Json.Printer
import Dissect.Json.Record
import Dissect.Text.Blank
import Std.Data.ExtTreeMap

namespace Dissect.Pe

/-- Says what a library calls an ordinal. -/
abbrev OrdinalNames := String → UInt16 → Option String

/-- The names of one library, by ordinal. -/
abbrev OrdinalTable := Std.ExtTreeMap UInt16 String

/-- Names of functions by library and ordinal. -/
structure OrdinalDatabase where
  tables : Std.ExtTreeMap String OrdinalTable
  deriving DecidableEq

namespace OrdinalDatabase

/-- The database with no tables. -/
def empty : OrdinalDatabase := ⟨∅⟩

/-- The table of a library, in lower case; a library without one has an
empty table. -/
def table (db : OrdinalDatabase) (library : String) : OrdinalTable :=
  db.tables[Text.lowerAscii library]?.getD ∅

/-- Add names for one library, over what was there. -/
def extend (db : OrdinalDatabase) (library : String) (names : List (UInt16 × String)) :
    OrdinalDatabase :=
  ⟨db.tables.insert (Text.lowerAscii library) ((db.table library).insertMany names)⟩

/-- Add one name, over what was there. -/
def insert (db : OrdinalDatabase) (library : String) (ordinal : UInt16) (name : String) :
    OrdinalDatabase :=
  db.extend library [(ordinal, name)]

/-- Add the tables of a list. -/
def extendAll (db : OrdinalDatabase) (tables : List (String × OrdinalTable)) :
    OrdinalDatabase :=
  tables.foldl (fun db t => db.extend t.1 t.2.toList) db

/-- Add every table of another database. -/
def merge (db other : OrdinalDatabase) : OrdinalDatabase :=
  db.extendAll other.tables.toList

/-- The number of names. -/
def size (db : OrdinalDatabase) : Nat := db.tables.foldl (fun n _ t => n + t.size) 0

/-- There are no names. -/
def isEmpty (db : OrdinalDatabase) : Bool := db.size == 0

/-- The name of an ordinal of a library. -/
def lookup? (db : OrdinalDatabase) : OrdinalNames := fun library ordinal =>
  match db.tables[library]? with
  | some t => t[ordinal]?
  | none => db.tables[Text.lowerAscii library]?.bind fun t => t[ordinal]?

-- ================================================================= JSON

/-- A table from an object from ordinals to names; of a repeated key the
last name stays. -/
def tableOfJson? (j : Json) : Option OrdinalTable := do
  let members ← j.numberMembers? UInt16.size
  let pairs ← members.mapM fun m => m.2.string?.map fun name => (UInt16.ofNat m.1, name)
  some (.ofList pairs compare)

/-- Tables as they stand in an object from libraries to tables; of a
repeated key the last table stays. -/
def ofJson? (j : Json) : Option OrdinalDatabase := do
  let members ← j.textMembers?
  let pairs ← members.mapM fun m => (tableOfJson? m.2).map fun t => (m.1, t)
  some ⟨.ofList pairs compare⟩

/-- A database from JSON text, every library as it is spelled there. -/
def parseVerbatim? (text : String) : Option OrdinalDatabase :=
  (Json.parse? text).bind ofJson?

/-- A database from JSON text, every library in lower case. -/
def parse? (text : String) : Option OrdinalDatabase :=
  (parseVerbatim? text).map fun verbatim => empty.merge verbatim

/-- A database as an object from libraries to tables. -/
def toJson (db : OrdinalDatabase) : Json :=
  Json.ofMembers <| db.tables.toList.map fun t =>
    (t.1, Json.ofMembers <| t.2.toList.map fun n =>
      (Numeral.decimal n.1.toNat, Json.ofText n.2))

-- ============================================================== built in

/-- The names of the socket library. -/
def sockets : List (UInt16 × String) :=
  [ (1, "accept"), (2, "bind"), (3, "closesocket"), (4, "connect"), (5, "getpeername"),
    (6, "getsockname"), (7, "getsockopt"), (8, "htonl"), (9, "htons"),
    (10, "ioctlsocket"), (11, "inet_addr"), (12, "inet_ntoa"), (13, "listen"),
    (14, "ntohl"), (15, "ntohs"), (16, "recv"), (17, "recvfrom"), (18, "select"),
    (19, "send"), (20, "sendto"), (21, "setsockopt"), (22, "shutdown"), (23, "socket"),
    (51, "gethostbyaddr"), (52, "gethostbyname"), (53, "getprotobyname"),
    (54, "getprotobynumber"), (55, "getservbyname"), (56, "getservbyport"),
    (57, "gethostname"), (111, "WSAGetLastError"), (112, "WSASetLastError"),
    (115, "WSAStartup"), (116, "WSACleanup"), (151, "__WSAFDIsSet") ]

/-- The names of the automation library. -/
def automation : List (UInt16 × String) :=
  [ (2, "SysAllocString"), (3, "SysReAllocString"), (4, "SysAllocStringLen"),
    (5, "SysReAllocStringLen"), (6, "SysFreeString"), (7, "SysStringLen"),
    (8, "VariantInit"), (9, "VariantClear"), (10, "VariantCopy"),
    (11, "VariantCopyInd"), (12, "VariantChangeType") ]

/-- The names that come with the library. -/
def builtin : OrdinalDatabase :=
  ((empty.extend "ws2_32.dll" sockets).extend "wsock32.dll" sockets).extend
    "oleaut32.dll" automation

end OrdinalDatabase

end Dissect.Pe
