import TestCatalog.Json
import TestCatalog.Reconcile.Basic

/-!
# Reconciliations as JSON

The payload form of a reconciliation and its reader.
-/

namespace TestCatalog.Reconciliation

def idsToJson (ids : List Text) : Json :=
  .array (ids.map .string)

def idsOfJson? (json : Json) : Option (List Text) :=
  json.toList? Json.toText?

def toJson (r : Reconciliation) : Json :=
  .object [("only_in_executed", idsToJson r.onlyExecuted),
    ("only_in_catalogued", idsToJson r.onlyCatalogued),
    ("near_match_executed", idsToJson r.nearExecuted),
    ("near_match_catalogued", idsToJson r.nearCatalogued),
    ("intersection", (r.common.map idsToJson).getD .null)]

def ofJson? (json : Json) : Option Reconciliation := do
  match ← json.toRecord? [("only_in_executed", false), ("only_in_catalogued", false),
      ("near_match_executed", false), ("near_match_catalogued", false),
      ("intersection", true)] with
  | [onlyExecuted, onlyCatalogued, nearExecuted, nearCatalogued, common] =>
    return {
      onlyExecuted := ← idsOfJson? onlyExecuted
      onlyCatalogued := ← idsOfJson? onlyCatalogued
      nearExecuted := ← idsOfJson? nearExecuted
      nearCatalogued := ← idsOfJson? nearCatalogued
      common := ← common.toOption? idsOfJson? }
  | _ => none

end TestCatalog.Reconciliation
