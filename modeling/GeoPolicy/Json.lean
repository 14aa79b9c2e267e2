import GeoPolicy.Json.Decode
import GeoPolicy.Json.Printer
