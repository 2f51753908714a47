import NativeCatalogue.Binary.Basic
import NativeCatalogue.Json.Fields

set_option autoImplicit false

namespace NativeCatalogue

open Arithmetic

inductive Handle where
  | void
  | any
  | hash
  | entity
  | player
  | fireId
  | ped
  | vehicle
  | cam
  | carGenerator
  | group
  | train
  | pickup
  | object
  | weapon
  | interior
  | blip
  | texture
  | textureDict
  | coverPoint
  | camera
  | taskSequence
  | colourIndex
  | sphere
  | scrHandle
  | itemSet
  | animScene
  | persChar
  | popZone
  | prompt
  | propSet
  | volume
  deriving DecidableEq, Repr

namespace Handle

def all : List Handle :=
  [.void, .any, .hash, .entity, .player, .fireId, .ped, .vehicle, .cam, .carGenerator, .group,
    .train, .pickup, .object, .weapon, .interior, .blip, .texture, .textureDict, .coverPoint,
    .camera, .taskSequence, .colourIndex, .sphere, .scrHandle, .itemSet, .animScene, .persChar,
    .popZone, .prompt, .propSet, .volume]

def name : Handle → String
  | .void => "Void"
  | .any => "Any"
  | .hash => "Hash"
  | .entity => "Entity"
  | .player => "Player"
  | .fireId => "FireId"
  | .ped => "Ped"
  | .vehicle => "Vehicle"
  | .cam => "Cam"
  | .carGenerator => "CarGenerator"
  | .group => "Group"
  | .train => "Train"
  | .pickup => "Pickup"
  | .object => "Object"
  | .weapon => "Weapon"
  | .interior => "Interior"
  | .blip => "Blip"
  | .texture => "Texture"
  | .textureDict => "TextureDict"
  | .coverPoint => "CoverPoint"
  | .camera => "Camera"
  | .taskSequence => "TaskSequence"
  | .colourIndex => "ColourIndex"
  | .sphere => "Sphere"
  | .scrHandle => "ScrHandle"
  | .itemSet => "ItemSet"
  | .animScene => "AnimScene"
  | .persChar => "PersChar"
  | .popZone => "PopZone"
  | .prompt => "Prompt"
  | .propSet => "PropSet"
  | .volume => "Volume"

def ofName? (name : String) : Option Handle :=
  all.find? fun h => h.name = name

/-- The first three are declared through `DWORD`, the others through `int`. -/
def isDwordBased : Handle → Bool
  | .void | .any | .hash => true
  | _ => false

def index (h : Handle) : Nat :=
  all.idxOf h

end Handle

structure HandleValue (kind : Handle) where
  raw : Int32
  deriving DecidableEq

namespace HandleValue

variable {kind : Handle}

def toJson (v : HandleValue kind) : Json :=
  .int v.raw.toInt

def ofJson? (kind : Handle) (text : JsonText) : Option (HandleValue kind) := do
  let i ← text.int?
  if -(2 ^ (31 : Nat) : Nat) ≤ i && i < (2 ^ (31 : Nat) : Nat) then some ⟨.ofInt i⟩ else none

end HandleValue

end NativeCatalogue
