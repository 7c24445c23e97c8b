/-
  OPERATORS AND THEIR BINDING TO NODES (peat-schema/proto/node.proto) and
  `max_authority` of models/operator.rs.
-/
import Peat.Lib.Grouping
import Peat.Schema

namespace Peat.Models

open Peat.Lib

inductive AuthorityLevel where
  | unspecified | observer | advisor | supervisor | commander
  deriving DecidableEq, Repr

namespace AuthorityLevel

def toI32 : AuthorityLevel → Int
  | .unspecified => 0 | .observer => 1 | .advisor => 2 | .supervisor => 3 | .commander => 4

def tryFrom : Int → Option AuthorityLevel
  | 0 => some .unspecified | 1 => some .observer | 2 => some .advisor | 3 => some .supervisor
  | 4 => some .commander
  | _ => none

def rank (level : Option AuthorityLevel) : Int := level.elim (-1) toI32

end AuthorityLevel

structure Operator where
  id : String
  name : String
  rank : Int
  authorityLevel : Int
  mos : String
  metadataJson : String
  deriving DecidableEq, Repr

structure HumanMachinePair where
  operators : List Operator
  nodeIds : List String
  bindingType : Int
  boundAt : Option Timestamp
  deriving DecidableEq, Repr

def HumanMachinePair.maxAuthority (pair : HumanMachinePair) : Option AuthorityLevel :=
  (maxByKey AuthorityLevel.rank
    (pair.operators.map fun op => AuthorityLevel.tryFrom op.authorityLevel)).join

end Peat.Models
