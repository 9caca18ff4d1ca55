import MaterialBinding.Description.Basic
import MaterialBinding.Json.Reader
import MaterialBinding.Json.Printer

/-!
# Scenes as JSON

The JSON form of a description.  A scene is an object with the list `prims`; a prim has a `name`,
and lists of `relationships`, `collections` and `children`, of which the empty ones are not
written.

`Stage.ofJson` reads a whole text before it looks at what the texts in it mean, and `Stage.toJson`
writes a stage as a page of JSON.
-/

namespace MaterialBinding

open Json

namespace RelationshipDescription

/-- The fields of a relationship; inside of them `limit` brackets may be opened. -/
def fields (limit : Nat) : List (RecordField RelationshipDescription) :=
  [.mandatory "name" readString fun record name => { record with name },
   .optional "targets" (readList limit readString) fun record targets => { record with targets },
   .optional "bindMaterialAs" (readOption readString) fun record bindMaterialAs =>
     { record with bindMaterialAs },
   .optional "metadata" (readMap limit readString) fun record pairs =>
     { record with metadata := sortByKey pairs }]

/-- Writes a relationship. -/
def printer (description : RelationshipDescription) : Printer :=
  .object <|
    [("name", .string description.name),
     ("targets", .list (description.targets.map .string))] ++
    description.bindMaterialAs.toList.map (fun token => ("bindMaterialAs", .string token)) ++
    (if description.metadata.isEmpty then []
      else [("metadata", .object (description.metadata.map fun pair => (pair.1, .string pair.2)))])

end RelationshipDescription

namespace CollectionDescription

/-- The fields of a collection; inside of them `limit` brackets may be opened. -/
def fields (limit : Nat) : List (RecordField CollectionDescription) :=
  [.mandatory "name" readString fun record name => { record with name },
   .optional "includes" (readList limit readString) fun record includes =>
     { record with includes },
   .optional "excludes" (readList limit readString) fun record excludes =>
     { record with excludes },
   .optional "expansionRule" (readOption readString) fun record expansionRule =>
     { record with expansionRule },
   .optional "includeRoot" readBool fun record includeRoot => { record with includeRoot }]

/-- Writes a collection. -/
def printer (description : CollectionDescription) : Printer :=
  .object <|
    [("name", .string description.name)] ++
    (if description.includes.isEmpty then []
      else [("includes", .list (description.includes.map .string))]) ++
    (if description.excludes.isEmpty then []
      else [("excludes", .list (description.excludes.map .string))]) ++
    description.expansionRule.toList.map (fun token => ("expansionRule", .string token)) ++
    [("includeRoot", .bool description.includeRoot)]

end CollectionDescription

namespace Description

/-- The fields of a prim; inside of them `limit` brackets may be opened, and `child` reads a
child. -/
def primFields (limit : Nat) (child : Reader (PrimDescription × Description)) :
    List (RecordField (PrimDescription × Description)) :=
  [.mandatory "name" readString fun record name => ({ record.1 with name }, record.2),
   .optional "relationships"
     (readList limit (readRecord (limit - 1) (RelationshipDescription.fields (limit - 2)) {}))
     fun record relationships => ({ record.1 with relationships }, record.2),
   .optional "collections"
     (readList limit (readRecord (limit - 1) (CollectionDescription.fields (limit - 2)) {}))
     fun record collections => ({ record.1 with collections }, record.2),
   .optional "children" (readList limit child) fun record children => (record.1, ofList children)]

/-- Reads a prim, inside of which `limit - 1` more brackets may be opened.  A child is two
brackets further in. -/
def readPrim : Nat → Reader (PrimDescription × Description)
  | 0 => readRecord 0 (primFields 0 fun _ => .error .malformed) ({}, .nil)
  | 1 => readRecord 1 (primFields 0 fun _ => .error .malformed) ({}, .nil)
  | limit + 2 => readRecord (limit + 2) (primFields (limit + 1) (readPrim limit)) ({}, .nil)

/-- Reads a scene. -/
def reader : Reader Description :=
  readRecord nestingLimit
    [.optional "prims" (readList (nestingLimit - 1) (readPrim (nestingLimit - 2)))
      fun _ prims => ofList prims]
    .nil

/-- Writes a prim, given the printers of its children. -/
def primPrinter (prim : PrimDescription) (children : List Printer) : Printer :=
  .object <|
    [("name", .string prim.name)] ++
    (if prim.relationships.isEmpty then []
      else [("relationships", .list (prim.relationships.map (·.printer)))]) ++
    (if prim.collections.isEmpty then []
      else [("collections", .list (prim.collections.map (·.printer)))]) ++
    (if children.isEmpty then [] else [("children", .list children)])

/-- Writes prims side by side. -/
def printers : Description → List Printer
  | nil => []
  | cons prim children rest => primPrinter prim children.printers :: rest.printers

/-- Writes a scene. -/
def printer (description : Description) : Printer :=
  .object (if description.printers.isEmpty then [] else [("prims", .list description.printers)])

end Description

namespace Stage

/-- Reads a stage from JSON. -/
def ofJson (text : String) : Except Error Stage :=
  match readText Description.reader text with
  | .ok description => ofDescription description
  | .error problem => .error (.json problem)

/-- Writes a stage as JSON. -/
def toJson (stage : Stage) : String := stage.tree.describe.printer.page

end Stage

end MaterialBinding
