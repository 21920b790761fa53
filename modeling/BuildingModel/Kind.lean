/-!
# Kinds of entities

The kind of an entity is its type name. The names that this library knows have a constructor each;
every other name is kept as it is.
-/

namespace BuildingModel

/-- The kind of an entity. -/
inductive Kind where
  -- Building elements
  | wall | wallStandardCase | slab | beam | column | roof | stair | railing | covering
  | curtainWall | plate | member | footing | door | window | buildingElementProxy
  | furnishingElement | openingElement
  -- Spatial structure
  | project | site | building | buildingStorey | space
  -- Relationships
  | relAggregates | relContainedInSpatialStructure | relDefinesByProperties | relDefinesByType
  | relAssociatesMaterial | relVoidsElement | relFillsElement
  -- Placement and representation
  | cartesianPoint | cartesianPointList2D | cartesianPointList3D | direction | axis2Placement2D
  | axis2Placement3D | localPlacement | productDefinitionShape | shapeRepresentation
  | geometricRepresentationContext | geometricRepresentationSubContext
  -- Geometric items
  | extrudedAreaSolid | rectangleProfileDef | circleProfileDef | arbitraryClosedProfileDef
  | arbitraryProfileDefWithVoids | polyline | indexedPolyCurve | polyLoop | faceOuterBound
  | faceBound | face | closedShell | openShell | facetedBrep | shellBasedSurfaceModel
  | triangulatedFaceSet
  -- Units and ownership
  | unitAssignment | siUnit | conversionBasedUnit | measureWithUnit | dimensionalExponents
  | ownerHistory | person | organization | personAndOrganization | application
  -- Properties and materials
  | propertySet | propertySingleValue | elementQuantity | material
  /-- A type name without a constructor of its own. -/
  | other (name : String)
deriving DecidableEq, Repr, Inhabited

namespace Kind

/-- The type name of a kind, in capitals. -/
def name : Kind → String
  | .wall => "IFCWALL"
  | .wallStandardCase => "IFCWALLSTANDARDCASE"
  | .slab => "IFCSLAB"
  | .beam => "IFCBEAM"
  | .column => "IFCCOLUMN"
  | .roof => "IFCROOF"
  | .stair => "IFCSTAIR"
  | .railing => "IFCRAILING"
  | .covering => "IFCCOVERING"
  | .curtainWall => "IFCCURTAINWALL"
  | .plate => "IFCPLATE"
  | .member => "IFCMEMBER"
  | .footing => "IFCFOOTING"
  | .door => "IFCDOOR"
  | .window => "IFCWINDOW"
  | .buildingElementProxy => "IFCBUILDINGELEMENTPROXY"
  | .furnishingElement => "IFCFURNISHINGELEMENT"
  | .openingElement => "IFCOPENINGELEMENT"
  | .project => "IFCPROJECT"
  | .site => "IFCSITE"
  | .building => "IFCBUILDING"
  | .buildingStorey => "IFCBUILDINGSTOREY"
  | .space => "IFCSPACE"
  | .relAggregates => "IFCRELAGGREGATES"
  | .relContainedInSpatialStructure => "IFCRELCONTAINEDINSPATIALSTRUCTURE"
  | .relDefinesByProperties => "IFCRELDEFINESBYPROPERTIES"
  | .relDefinesByType => "IFCRELDEFINESBYTYPE"
  | .relAssociatesMaterial => "IFCRELASSOCIATESMATERIAL"
  | .relVoidsElement => "IFCRELVOIDSELEMENT"
  | .relFillsElement => "IFCRELFILLSELEMENT"
  | .cartesianPoint => "IFCCARTESIANPOINT"
  | .cartesianPointList2D => "IFCCARTESIANPOINTLIST2D"
  | .cartesianPointList3D => "IFCCARTESIANPOINTLIST3D"
  | .direction => "IFCDIRECTION"
  | .axis2Placement2D => "IFCAXIS2PLACEMENT2D"
  | .axis2Placement3D => "IFCAXIS2PLACEMENT3D"
  | .localPlacement => "IFCLOCALPLACEMENT"
  | .productDefinitionShape => "IFCPRODUCTDEFINITIONSHAPE"
  | .shapeRepresentation => "IFCSHAPEREPRESENTATION"
  | .geometricRepresentationContext => "IFCGEOMETRICREPRESENTATIONCONTEXT"
  | .geometricRepresentationSubContext => "IFCGEOMETRICREPRESENTATIONSUBCONTEXT"
  | .extrudedAreaSolid => "IFCEXTRUDEDAREASOLID"
  | .rectangleProfileDef => "IFCRECTANGLEPROFILEDEF"
  | .circleProfileDef => "IFCCIRCLEPROFILEDEF"
  | .arbitraryClosedProfileDef => "IFCARBITRARYCLOSEDPROFILEDEF"
  | .arbitraryProfileDefWithVoids => "IFCARBITRARYPROFILEDEFWITHVOIDS"
  | .polyline => "IFCPOLYLINE"
  | .indexedPolyCurve => "IFCINDEXEDPOLYCURVE"
  | .polyLoop => "IFCPOLYLOOP"
  | .faceOuterBound => "IFCFACEOUTERBOUND"
  | .faceBound => "IFCFACEBOUND"
  | .face => "IFCFACE"
  | .closedShell => "IFCCLOSEDSHELL"
  | .openShell => "IFCOPENSHELL"
  | .facetedBrep => "IFCFACETEDBREP"
  | .shellBasedSurfaceModel => "IFCSHELLBASEDSURFACEMODEL"
  | .triangulatedFaceSet => "IFCTRIANGULATEDFACESET"
  | .unitAssignment => "IFCUNITASSIGNMENT"
  | .siUnit => "IFCSIUNIT"
  | .conversionBasedUnit => "IFCCONVERSIONBASEDUNIT"
  | .measureWithUnit => "IFCMEASUREWITHUNIT"
  | .dimensionalExponents => "IFCDIMENSIONALEXPONENTS"
  | .ownerHistory => "IFCOWNERHISTORY"
  | .person => "IFCPERSON"
  | .organization => "IFCORGANIZATION"
  | .personAndOrganization => "IFCPERSONANDORGANIZATION"
  | .application => "IFCAPPLICATION"
  | .propertySet => "IFCPROPERTYSET"
  | .propertySingleValue => "IFCPROPERTYSINGLEVALUE"
  | .elementQuantity => "IFCELEMENTQUANTITY"
  | .material => "IFCMATERIAL"
  | .other name => name

/-- The kinds with a constructor of their own. -/
def named : List Kind := [
  .wall, .wallStandardCase, .slab, .beam, .column, .roof, .stair, .railing, .covering,
  .curtainWall, .plate, .member, .footing, .door, .window, .buildingElementProxy,
  .furnishingElement, .openingElement, .project, .site, .building, .buildingStorey, .space,
  .relAggregates, .relContainedInSpatialStructure, .relDefinesByProperties, .relDefinesByType,
  .relAssociatesMaterial, .relVoidsElement, .relFillsElement, .cartesianPoint,
  .cartesianPointList2D, .cartesianPointList3D, .direction, .axis2Placement2D, .axis2Placement3D,
  .localPlacement, .productDefinitionShape, .shapeRepresentation,
  .geometricRepresentationContext, .geometricRepresentationSubContext, .extrudedAreaSolid,
  .rectangleProfileDef, .circleProfileDef, .arbitraryClosedProfileDef,
  .arbitraryProfileDefWithVoids, .polyline, .indexedPolyCurve, .polyLoop, .faceOuterBound,
  .faceBound, .face, .closedShell, .openShell, .facetedBrep, .shellBasedSurfaceModel,
  .triangulatedFaceSet, .unitAssignment, .siUnit, .conversionBasedUnit, .measureWithUnit,
  .dimensionalExponents, .ownerHistory, .person, .organization, .personAndOrganization,
  .application, .propertySet, .propertySingleValue, .elementQuantity, .material]

/-- The kind with a given type name in capitals. -/
def ofName (name : String) : Kind :=
  (named.find? (·.name = name)).getD (.other name)

/-- Whether the kind has a constructor of its own. -/
def isNamed : Kind → Bool
  | .other _ => false
  | _ => true

/-- Spatial structure: project, site, building, storey, space. -/
def isSpatial : Kind → Bool
  | .project | .site | .building | .buildingStorey | .space => true
  | _ => false

/-- Physical products, which carry a placement and a representation. -/
def isProduct : Kind → Bool
  | .wall | .wallStandardCase | .slab | .beam | .column | .roof | .stair | .railing | .covering
  | .curtainWall | .plate | .member | .footing | .door | .window | .buildingElementProxy
  | .furnishingElement | .openingElement => true
  | _ => false

/-- Whether a name starts with a given text. -/
def startsWith (name start : String) : Bool := start.toList.isPrefixOf name.toList

/-- Whether a name ends with a given text. -/
def endsWith (name tail : String) : Bool := tail.toList.isSuffixOf name.toList

/-- Objectified relationships between entities. -/
def isRelationship : Kind → Bool
  | .relAggregates | .relContainedInSpatialStructure | .relDefinesByProperties
  | .relDefinesByType | .relAssociatesMaterial | .relVoidsElement | .relFillsElement => true
  | .other name => startsWith name "IFCREL"
  | _ => false

/-- How the type names of resources start, which never stand for a shape of their own. -/
def resourceStarts : List String := [
  "IFCREL", "IFCPROPERTY", "IFCQUANTITY", "IFCMATERIAL", "IFCPRESENTATION", "IFCSURFACESTYLE",
  "IFCCOLOUR", "IFCSTYLEDITEM", "IFCCLASSIFICATION", "IFCCOMPLEXPROPERTY"]

/-- Resources: units, ownership, contexts, properties, materials, styles and type objects. -/
def isResource : Kind → Bool
  | .unitAssignment | .siUnit | .conversionBasedUnit | .measureWithUnit | .dimensionalExponents
  | .ownerHistory | .person | .organization | .personAndOrganization | .application
  | .geometricRepresentationContext | .geometricRepresentationSubContext | .propertySet
  | .propertySingleValue | .elementQuantity | .material => true
  | .other name =>
    resourceStarts.any (startsWith name) || endsWith name "TYPE" || endsWith name "UNIT"
  | _ => false

/-- Kinds that never produce a shape when they stand alone in a file. -/
def isNonGeometric (kind : Kind) : Bool :=
  kind.isSpatial || kind.isRelationship || kind.isResource

end Kind

end BuildingModel
