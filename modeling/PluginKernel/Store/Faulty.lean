import PluginKernel.Store.Basic

/-!
# Stores that fail

A store in front of which calls fail, chosen by the path they are given: writes, listings and reads
that contain one of some texts are refused, and some records are not found though they are there.
-/

namespace PluginKernel.Store

/-- Which calls fail: each list holds texts of which one occurs in the path. -/
structure Faults where
  /-- Writes that are refused. -/
  write : List String := []
  /-- Listings that are refused. -/
  list : List String := []
  /-- Reads that are refused. -/
  read : List String := []
  /-- Reads that find nothing. -/
  vanish : List String := []
deriving DecidableEq, Repr

namespace Faults

/-- Whether one of the texts occurs in a path. -/
def hits (needles : List String) (path : String) : Bool := needles.any (Text.contains · path)

/-- What a refused call answers. -/
def refusal : StatisticError := .other "store offline"

end Faults

/-- A store with faults in front of it. -/
structure Faulty (σ : Type) where
  /-- The calls that fail. -/
  faults : Faults
  /-- The store behind them. -/
  store : σ

instance {σ : Type} [RecordStore σ] : RecordStore (Faulty σ) where
  write s path record :=
    if Faults.hits s.faults.write path then .error Faults.refusal
    else (RecordStore.write s.store path record).map fun store => { s with store }
  list s path :=
    if Faults.hits s.faults.list path then .error Faults.refusal
    else RecordStore.list s.store path
  read s path :=
    if Faults.hits s.faults.read path then .error Faults.refusal
    else if Faults.hits s.faults.vanish path then .ok none
    else RecordStore.read s.store path

end PluginKernel.Store
