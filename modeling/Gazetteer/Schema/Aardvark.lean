import Gazetteer.Schema.Field
/-! The Aardvark layout of resource metadata. -/

namespace Gazetteer.Schema

def aardvark : Schema where
  fields := [
    .scalar "id",
    .inSearch (.scalar "dct_title_s"),
    .scalar "dct_accessRights_s",
    .scalar "dct_format_s",
    .scalar "dct_issued_s",
    .scalar "schema_provider_s",
    .scalar "dcat_bbox",
    .scalar "locn_geometry",
    .scalar "dcat_centroid",
    .scalar "gbl_fileSize_s",
    .scalar "gbl_wxsIdentifier_s",
    .scalar "gbl_mdModified_dt",
    .scalar "gbl_mdVersion_s",
    .scalar "gbl_suppressed_b",
    .scalar "gbl_georeferenced_b",
    .repeatable "dct_alternative_sm",
    .inSearch (.repeatable "dct_description_sm"),
    .repeatable "dct_language_sm",
    .repeatable "dct_creator_sm",
    .repeatable "dct_publisher_sm",
    .repeatable "gbl_resourceClass_sm",
    .repeatable "gbl_resourceType_sm",
    .inSearch (.repeatable "dct_subject_sm"),
    .repeatable "dcat_theme_sm",
    .inSearch (.repeatable "dcat_keyword_sm"),
    .repeatable "dct_temporal_sm",
    .withNumbers (.repeatable "gbl_indexYear_im"),
    .repeatable "gbl_dateRange_drsim",
    .repeatable "dct_spatial_sm",
    .repeatable "dct_relation_sm",
    .repeatable "pcdm_memberOf_sm",
    .repeatable "dct_isPartOf_sm",
    .repeatable "dct_source_sm",
    .repeatable "dct_isVersionOf_sm",
    .repeatable "dct_replaces_sm",
    .repeatable "dct_isReplacedBy_sm",
    .repeatable "dct_rights_sm",
    .repeatable "dct_rightsHolder_sm",
    .repeatable "dct_license_sm",
    .repeatable "dct_identifier_sm"
  ]

end Gazetteer.Schema
