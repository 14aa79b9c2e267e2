import GeoPolicy.GeoDb.Record
