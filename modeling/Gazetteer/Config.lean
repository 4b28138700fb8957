import Gazetteer.Dict
/-! The settings of a catalog, with the relations and column names it knows by default. -/

namespace Gazetteer

/-- Relation addresses and the short keys they are stored under. -/
def defaultRelations : Dict String := .ofList [
  ("http://schema.org/url", "url"),
  ("http://schema.org/downloadUrl", "download"),
  ("http://schema.org/thumbnailUrl", "thumbnail"),
  ("http://www.opengis.net/def/serviceType/ogc/wms", "wms"),
  ("http://www.opengis.net/def/serviceType/ogc/wfs", "wfs"),
  ("http://www.opengis.net/def/serviceType/ogc/wcs", "wcs"),
  ("http://www.opengis.net/def/serviceType/ogc/wmts", "wmts"),
  ("http://iiif.io/api/image", "iiif_image"),
  ("http://iiif.io/api/presentation#manifest", "iiif_manifest"),
  ("https://openindexmaps.org", "open_index_map"),
  ("https://github.com/cogeotiff/cog-spec", "cog"),
  ("https://github.com/protomaps/PMTiles", "pmtiles"),
  ("https://wiki.osgeo.org/wiki/XYZ", "xyz_tiles"),
  ("https://wiki.osgeo.org/wiki/Tile_Map_Service", "tile_map_service"),
  ("https://developers.arcgis.com/rest/services-reference/enterprise/feature-service.htm",
    "arcgis_feature_service"),
  ("urn:x-esri:serviceType:ArcGIS#FeatureLayer", "arcgis_feature_layer"),
  ("urn:x-esri:serviceType:ArcGIS#DynamicMapLayer", "arcgis_dynamic_map_layer"),
  ("urn:x-esri:serviceType:ArcGIS#ImageMapLayer", "arcgis_image_map_layer"),
  ("urn:x-esri:serviceType:ArcGIS#TiledMapLayer", "arcgis_tiled_map_layer"),
  ("http://www.isotc211.org/schemas/2005/gmd/", "metadata_iso"),
  ("http://www.opengis.net/cat/csw/csdgm", "metadata_fgdc"),
  ("http://www.loc.gov/mods/v3", "metadata_mods"),
  ("http://www.w3.org/1999/xhtml", "metadata_html"),
  ("http://lccn.loc.gov/sh85035852", "documentation_download"),
  ("http://schema.org/image", "image")
]

/-- Friendly column names of tables and the fields they stand for. -/
def defaultAliases : Dict String := .ofList [
  ("ID", "id"),
  ("Title", "dct_title_s"),
  ("Alternative Title", "dct_alternative_sm"),
  ("Description", "dct_description_sm"),
  ("Language", "dct_language_sm"),
  ("Creator", "dct_creator_sm"),
  ("Publisher", "dct_publisher_sm"),
  ("Provider", "schema_provider_s"),
  ("Resource Class", "gbl_resourceClass_sm"),
  ("Resource Type", "gbl_resourceType_sm"),
  ("Subject", "dct_subject_sm"),
  ("Theme", "dcat_theme_sm"),
  ("Keyword", "dcat_keyword_sm"),
  ("Temporal Coverage", "dct_temporal_sm"),
  ("Date Issued", "dct_issued_s"),
  ("Index Year", "gbl_indexYear_im"),
  ("Date Range", "gbl_dateRange_drsim"),
  ("Spatial Coverage", "dct_spatial_sm"),
  ("Geometry", "locn_geometry"),
  ("Bounding Box", "dcat_bbox"),
  ("Centroid", "dcat_centroid"),
  ("Member Of", "pcdm_memberOf_sm"),
  ("Is Part Of", "dct_isPartOf_sm"),
  ("Rights", "dct_rights_sm"),
  ("Rights Holder", "dct_rightsHolder_sm"),
  ("License", "dct_license_sm"),
  ("Access Rights", "dct_accessRights_s"),
  ("Format", "dct_format_s"),
  ("File Size", "gbl_fileSize_s"),
  ("WxS Identifier", "gbl_wxsIdentifier_s"),
  ("References", "dct_references_s"),
  ("Identifier", "dct_identifier_sm"),
  ("Modified", "gbl_mdModified_dt"),
  ("Metadata Version", "gbl_mdVersion_s"),
  ("Suppressed", "gbl_suppressed_b"),
  ("Georeferenced", "gbl_georeferenced_b")
]

structure Config where
  /-- The database file; nothing keeps all data in memory. -/
  databasePath : Option String
  defaultPageSize : Nat
  defaultFacetLimit : Nat
  /-- The field whose facet is a timeline. -/
  timelineField : String
  timelineFacetLimit : Nat
  /-- Relation keys by relation address. -/
  relations : Dict String
  /-- Field names by column name. -/
  aliases : Dict String
  compressSnapshots : Bool
  verifySnapshots : Bool
deriving DecidableEq

namespace Config

def standard : Config where
  databasePath := none
  defaultPageSize := 10
  defaultFacetLimit := 10
  timelineField := "gbl_indexYear_im"
  timelineFacetLimit := 1000
  relations := defaultRelations
  aliases := defaultAliases
  compressSnapshots := true
  verifySnapshots := true

instance : Inhabited Config :=
  ⟨standard⟩

/-- The key of a relation address; an unknown address is its own key. -/
def relationKey (c : Config) (address : String) : String :=
  (c.relations.get? address).getD address

/-- The first address of a relation key; an unknown key is its own address. -/
def relationAddress (c : Config) (key : String) : String :=
  match c.relations.entries.find? fun entry => entry.2 == key with
  | some (address, _) => address
  | none => key

end Config

end Gazetteer
