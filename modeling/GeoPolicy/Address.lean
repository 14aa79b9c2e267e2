import GeoPolicy.Address.Basic
import GeoPolicy.Address.Text
import GeoPolicy.Address.Network
