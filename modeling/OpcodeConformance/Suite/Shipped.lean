import OpcodeConformance.FileTree
import OpcodeConformance.Json.Printer
import OpcodeConformance.Settings

namespace OpcodeConformance.Suite.Shipped

open Json.Print

def words (ws : List String) : List Char := list (ws.map text)

def memory (ws : List (String × String)) : List Char := object (ws.map fun w => (w.1, text w.2))

def case (op description : String) (members : List (String × List Char)) : List Char :=
  object ([("op", text op), ("description", text description)] ++ members)

def add : List Char := list [
  case "ADD" "1 + 2" [
    ("environment", object []),
    ("in", object [("stack", words ["0x01", "0x02"])]),
    ("out", object [("stack", words ["0x03"]), ("gasUsed", number 3)])],
  case "ADD" "carry into the second limb" [
    ("in", object [("stack", words ["0xffffffffffffffff", "0x01"])]),
    ("out", object [("stack", words ["0x010000000000000000"]), ("gasUsed", number 3)])],
  case "ADD" "wraps at 2^256" [
    ("in", object [("stack", words [
      "0xffffffffffffffffffffffffffffffffffffffffffffffffffffffffffffffff", "0x01"])]),
    ("out", object [("stack", words ["0x00"])])],
  case "ADD" "leaves lower items alone" [
    ("in", object [("stack", words ["0x07", "0x05", "0x06"])]),
    ("out", object [("stack", words ["0x07", "0x0b"])])]]

def callDataSize : List Char := list [
  case "CALLDATASIZE" "three bytes of call data" [
    ("environment", object [("callData", text "0x010203")]),
    ("in", object [("stack", words [])]),
    ("out", object [("stack", words ["0x03"]), ("gasUsed", number 2)])],
  case "CALLDATASIZE" "no call data" [
    ("environment", object []),
    ("in", object [("stack", words ["0x05"])]),
    ("out", object [("stack", words ["0x05", "0x00"])])]]

def caller : List Char := list [
  case "CALLER" "push the message sender" [
    ("environment", object [
      ("caller", text "0x5d5b0af35e1dd1d1a0f5cf1a2ae6a3b2bf7dd9e1"),
      ("callData", text "0x"),
      ("coinbase", text "0x0000000000000000000000000000000000000001"),
      ("address", text "0x00000000000000000000000000000000000000aa")]),
    ("in", object [("stack", words [])]),
    ("out", object [
      ("stack", words ["0x5d5b0af35e1dd1d1a0f5cf1a2ae6a3b2bf7dd9e1"]), ("gasUsed", number 2)])]]

def mstore : List Char := list [
  case "MSTORE" "store a word at offset 0" [
    ("in", object [("stack", words ["0x09", "0x2a", "0x00"])]),
    ("out", object [
      ("stack", words ["0x09"]), ("memory", memory [("0", "0x2a")]), ("gasUsed", number 3)])],
  case "MSTORE" "store a word at offset 32" [
    ("in", object [
      ("stack", words ["0x09", "0x0102030405060708090a0b0c0d0e0f10", "0x20"]),
      ("memory", memory [("0", "0xff")])]),
    ("out", object [
      ("stack", words ["0x09"]),
      ("memory", memory [("0", "0xff"), ("32", "0x0102030405060708090a0b0c0d0e0f10")])])]]

def pop : List Char := list [
  case "POP" "drop the top word" [
    ("in", object [("stack", words ["0x01", "0x02"])]),
    ("out", object [("stack", words ["0x01"]), ("gasUsed", number 2)])]]

def returnRange : List Char := list [
  case "RETURN" "return one byte of memory" [
    ("in", object [
      ("stack", words ["0x00", "0x01", "0x00"]), ("memory", memory [("0", "0x2a")])]),
    ("out", object [
      ("stack", words ["0x00"]), ("return", text "0x2a"), ("gasUsed", number 0)])]]

def documents : List (String × List Char) := [
  ("add.json", add), ("calldatasize.json", callDataSize), ("caller.json", caller),
  ("mstore.json", mstore), ("pop.json", pop), ("return.json", returnRange)]

def place : List String :=
  (Path.steps Settings.defaultFolder).filter fun s => !Path.isStill s

/-- A system with nothing of its own but the folder with the documents. -/
def tree : FileTree :=
  documents.foldl (fun t d => t.insert (place ++ [d.1]) (.file (document d.2))) .bare

end OpcodeConformance.Suite.Shipped
