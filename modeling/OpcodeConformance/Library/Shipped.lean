import OpcodeConformance.Library

namespace OpcodeConformance.Library.Shipped

/-- The sum of the two uppermost words, in four limbs of 64 bits with a carry. -/
def add : String :=
"(func $ADD (result i32)
  (local $a i32) (local $b i32) (local $i i32)
  (local $x i64) (local $s i64) (local $carry i64)
  (call $useGas (i64.const 3))
  (local.set $a (i32.sub (global.get $sp) (i32.const 32)))
  (local.set $b (global.get $sp))
  (block $done
    (loop $limb
      (br_if $done (i32.eq (local.get $i) (i32.const 32)))
      (local.set $x (i64.load (i32.add (local.get $a) (local.get $i))))
      (local.set $s
        (i64.add
          (i64.add (local.get $x) (i64.load (i32.add (local.get $b) (local.get $i))))
          (local.get $carry)))
      ;; overflow when the sum wrapped below x, or landed on x with a carry in
      (local.set $carry
        (i64.extend_i32_u
          (i32.or
            (i64.lt_u (local.get $s) (local.get $x))
            (i32.and
              (i64.eq (local.get $s) (local.get $x))
              (i64.ne (local.get $carry) (i64.const 0))))))
      (i64.store (i32.add (local.get $a) (local.get $i)) (local.get $s))
      (local.set $i (i32.add (local.get $i) (i32.const 8)))
      (br $limb)))
  (global.set $sp (local.get $a))
  (global.get $sp))
"

def callDataSize : String :=
"(func $CALLDATASIZE (result i32)
  (local $top i32)
  (call $useGas (i64.const 2))
  (local.set $top (i32.add (global.get $sp) (i32.const 32)))
  (i64.store (local.get $top) (i64.extend_i32_u (call $getCallDataSize)))
  (i64.store offset=8 (local.get $top) (i64.const 0))
  (i64.store offset=16 (local.get $top) (i64.const 0))
  (i64.store offset=24 (local.get $top) (i64.const 0))
  (global.set $sp (local.get $top))
  (global.get $sp))
"

def caller : String :=
"(func $CALLER (result i32)
  (local $top i32)
  (call $useGas (i64.const 2))
  (local.set $top (i32.add (global.get $sp) (i32.const 32)))
  (call $getCaller (local.get $top))
  (call $bswap_m160 (local.get $top))
  (i32.store offset=20 (local.get $top) (i32.const 0))
  (i64.store offset=24 (local.get $top) (i64.const 0))
  (global.set $sp (local.get $top))
  (global.get $sp))
"

def invalid : String :=
"(func $INVALID (result i32)
  unreachable)
"

def mstore : String :=
"(func $MSTORE (result i32)
  (local $dst i32) (local $src i32)
  (call $useGas (i64.const 3))
  (local.set $dst (i32.add (i32.load (global.get $sp)) (i32.const 33832)))
  (local.set $src (i32.sub (global.get $sp) (i32.const 32)))
  (i64.store (local.get $dst) (i64.load (local.get $src)))
  (i64.store offset=8 (local.get $dst) (i64.load offset=8 (local.get $src)))
  (i64.store offset=16 (local.get $dst) (i64.load offset=16 (local.get $src)))
  (i64.store offset=24 (local.get $dst) (i64.load offset=24 (local.get $src)))
  (global.set $sp (i32.sub (global.get $sp) (i32.const 64)))
  (global.get $sp))
"

def pop : String :=
"(func $POP (result i32)
  (call $useGas (i64.const 2))
  (global.set $sp (i32.sub (global.get $sp) (i32.const 32)))
  (global.get $sp))
"

/-- Stages bytes of the memory; the uppermost word is their offset, the second their number. -/
def returnRange : String :=
"(func $RETURN (result i32)
  (call $return
    (i32.add (i32.load (global.get $sp)) (i32.const 33832))
    (i32.load (i32.sub (global.get $sp) (i32.const 32))))
  (global.set $sp (i32.sub (global.get $sp) (i32.const 64)))
  (global.get $sp))
"

def reverseAddress : String :=
";; reverse the 20 bytes of an address in place
(func $bswap_m160 (param $ptr i32)
  (local $lo i32) (local $hi i32) (local $t i32)
  (local.set $lo (local.get $ptr))
  (local.set $hi (i32.add (local.get $ptr) (i32.const 19)))
  (block $done
    (loop $swap
      (br_if $done (i32.ge_u (local.get $lo) (local.get $hi)))
      (local.set $t (i32.load8_u (local.get $lo)))
      (i32.store8 (local.get $lo) (i32.load8_u (local.get $hi)))
      (i32.store8 (local.get $hi) (local.get $t))
      (local.set $lo (i32.add (local.get $lo) (i32.const 1)))
      (local.set $hi (i32.sub (local.get $hi) (i32.const 1)))
      (br $swap))))
"

def imports : List (String × String) := [
  ("useGas",
    "(import \"ethereum\" \"useGas\" (func $useGas (param i64)))"),
  ("getCaller",
    "(import \"ethereum\" \"getCaller\" (func $getCaller (param i32)))"),
  ("getCallDataSize",
    "(import \"ethereum\" \"getCallDataSize\" (func $getCallDataSize (result i32)))"),
  ("return",
    "(import \"ethereum\" \"return\" (func $return (param i32 i32)))")]

def functions : List (String × FunctionEntry × String) := [
  ("ADD", ⟨[], ["useGas"]⟩, add),
  ("POP", ⟨[], ["useGas"]⟩, pop),
  ("MSTORE", ⟨[], ["useGas"]⟩, mstore),
  ("CALLDATASIZE", ⟨[], ["useGas", "getCallDataSize"]⟩, callDataSize),
  ("CALLER", ⟨["bswap_m160"], ["useGas", "getCaller"]⟩, caller),
  ("RETURN", ⟨[], ["return"]⟩, returnRange),
  ("INVALID", ⟨[], []⟩, invalid),
  ("bswap_m160", ⟨[], []⟩, reverseAddress)]

end Shipped

def shipped : Library where
  manifest := {
    imports := Table.ofList Shipped.imports
    functions := Table.ofList (Shipped.functions.map fun f => (f.1, f.2.1)) }
  bodies := Table.ofList (Shipped.functions.map fun f => (f.1, f.2.2))
  pages := ModuleText.defaultPages

end OpcodeConformance.Library
