import GattSync.Gatt

/-!
# Attributes as the platform lists them

The platform lists the services of a peripheral with their characteristics, and these with their
descriptors. Each list is a set in ascending order: two services, or two characteristics, that agree
in everything are one.
-/

namespace GattSync.Platform

/-! ## Sets in ascending order -/

/-- Adds an element to a list in ascending order, unless an equal one is there. -/
def insertAscending {α : Type} [Ord α] (a : α) : List α → List α
  | [] => [a]
  | b :: rest =>
    match compare a b with
    | .lt => a :: b :: rest
    | .eq => b :: rest
    | .gt => b :: insertAscending a rest

/-- The elements of a list in ascending order, equal ones once. -/
def ascending {α : Type} [Ord α] (as : List α) : List α :=
  as.foldl (fun set a => insertAscending a set) []

/-! ## Attributes -/

/-- A characteristic with its descriptors. -/
structure Characteristic extends GattSync.Characteristic where
  /-- In ascending order. -/
  descriptors : List Uuid := []
  deriving DecidableEq, Repr

/-- Characteristics are in order of UUID, service, property bits and descriptors. -/
instance : Ord Characteristic where
  compare a b :=
    (compare a.uuid b.uuid).then <| (compare a.service b.service).then <|
      (compare a.properties.toNat b.properties.toNat).then <|
        List.compareLex compare a.descriptors b.descriptors

/-- A service with its characteristics. -/
structure Service extends GattSync.Service where
  /-- In ascending order. -/
  characteristics : List Characteristic := []
  deriving DecidableEq, Repr

/-- Services are in order of UUID, secondary before primary, and characteristics. -/
instance : Ord Service where
  compare a b :=
    (compare a.uuid b.uuid).then <| (compare a.isPrimary.toNat b.isPrimary.toNat).then <|
      List.compareLex compare a.characteristics b.characteristics

/-- All characteristics of services, in ascending order. -/
def characteristics (services : List Service) : List Characteristic :=
  ascending (services.flatMap (·.characteristics))

end GattSync.Platform
