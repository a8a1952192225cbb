import OpcodeConformance.Address
import OpcodeConformance.Json.Decoder
import OpcodeConformance.Json.Printer

namespace OpcodeConformance

def Address.decoder : Json.Decoder Address :=
  Json.text.refine fun s => (Address.ofHex s).mapError EncodingError.message

def Address.print (a : Address) : List Char := Json.Print.text a.toHex

def Json.hexBytes : Json.Decoder Bytes :=
  Json.text.refine fun s => (decodeHex s).mapError EncodingError.message

end OpcodeConformance
