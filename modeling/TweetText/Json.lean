import TweetText.Text

/-!
# JSON documents

A JSON document as a tree, with what is wrong with it in place. A reader of records finds out while
it walks the tree from left to right, so the first problem that it meets is the one it tells: the
text ends too early, the text is not JSON, or a piece of it has the wrong type.

Numbers and strings are judged less strictly where nobody reads their value: such a number may be
too large for a double, and such a string may hold unpaired surrogates. So the tree keeps what a
reader gets separate from whether the piece can be passed over.
-/

/-! ## Nodes -/

namespace TweetText.Json

/-- What may be wrong with a document. -/
inductive Fault where
  | malformed
  | truncated
  | mismatched
deriving DecidableEq, Repr

/-- A number: a whole one, or any that is written with a fraction, an exponent or as minus zero. -/
inductive Number where
  | whole (n : Int)
  | other
deriving DecidableEq, Repr

/-- How an array or an object ends: as it should; where the text ends, before or after a comma;
before something that fits in neither an element nor a comma; or inside of its last element, which
cannot be passed over. -/
inductive Ending where
  | closed
  | cut
  | cutAfterComma
  | junk
  | spoiled (fault : Fault)
deriving DecidableEq, Repr

/-- A node of a document. A broken one is a scalar that cannot be passed over, with its fault for a
reader and its fault for one that passes it over. -/
inductive Node where
  | null
  | bool (b : Bool)
  | number (n : Except Fault Number)
  | string (s : Except Fault String)
  | array (items : List Node) (ending : Ending)
  | object (members : List (Except Fault String × Node)) (ending : Ending)
  | broken (read passed : Fault)

def Ending.check : Ending → Except Fault Unit
  | closed => .ok ()
  | cut => .error .truncated
  | cutAfterComma => .error .truncated
  | junk => .error .malformed
  | spoiled fault => .error fault

namespace Node

/-- Passes over a node whose value nobody needs. -/
def skip : Node → Except Fault Unit
  | array _ ending => ending.check
  | object _ ending => ending.check
  | broken _ passed => .error passed
  | _ => .ok ()

/-- The fault of a node where another type was expected. A scalar is read first, and a container is
refused at its first bracket. -/
def refuse : Node → Fault
  | number (.error fault) => fault
  | string (.error fault) => fault
  | broken read _ => read
  | _ => .mismatched

/-! ### Nodes of values -/

def ofInt (n : Int) : Node := number (.ok (.whole n))

def ofString (s : String) : Node := string (.ok s)

def ofItems (items : List Node) : Node := array items .closed

def ofMembers (members : List (String × Node)) : Node :=
  object (members.map fun (name, value) => (.ok name, value)) .closed

def ofOption {α : Type} (node : α → Node) (a : Option α) : Node := (a.map node).getD null

end Node

/-! ## Strings

The inside of a string is cut into *glyphs*, each a byte or a UTF-16 unit written by its number, up
to the closing quotation mark. Its text is made of the glyphs: units have to be characters of the
basic plane or pairs of surrogates, and all bytes together have to be UTF-8. -/

/-- What was found at some place: the value that a reader gets, and the input that follows. -/
structure Scanned (α : Type) where
  value : Except Fault α
  rest : Except Fault (List UInt8)

inductive Glyph where
  | byte (b : UInt8)
  | unit (u : UInt16)
deriving DecidableEq, Repr

namespace Quoted

def unit? (a b c d : UInt8) : Option UInt16 :=
  (Digits.read? 16 ([a, b, c, d].map fun b => Char.ofNat b.toNat)).map Nat.toUInt16

def escape? (letter : UInt8) : Option UInt8 :=
  match Char.ofNat letter.toNat with
  | '"' => some 0x22
  | '\\' => some 0x5C
  | '/' => some 0x2F
  | 'b' => some 0x08
  | 'f' => some 0x0C
  | 'n' => some 0x0A
  | 'r' => some 0x0D
  | 't' => some 0x09
  | _ => none

/-- Cuts the inside of a string into glyphs, in front of those found already, latest first. An
escape by number needs four more bytes of input before it is looked at. -/
def glyphs (found : List Glyph) : List UInt8 → List Glyph × Except Fault (List UInt8)
  | [] => (found.reverse, .error .truncated)
  | 0x22 :: rest => (found.reverse, .ok rest)
  | 0x5C :: [] => (found.reverse, .error .truncated)
  | 0x5C :: 0x75 :: a :: b :: c :: d :: rest =>
    match unit? a b c d with
    | some u => glyphs (.unit u :: found) rest
    | none => (found.reverse, .error .malformed)
  | 0x5C :: 0x75 :: _ => (found.reverse, .error .truncated)
  | 0x5C :: letter :: rest =>
    match escape? letter with
    | some b => glyphs (.byte b :: found) rest
    | none => (found.reverse, .error .malformed)
  | b :: rest =>
    if b < 0x20 then (found.reverse, .error .malformed) else glyphs (.byte b :: found) rest

/-- The bytes of a list of glyphs. A lead that ends the list has the fault `ending`. -/
def bytes (ending : Fault) : List Glyph → Except Fault (List UInt8)
  | [] => .ok []
  | .byte b :: rest => (bytes ending rest).map (b :: ·)
  | .unit u :: rest =>
    if Utf16.isTrail u then .error .malformed
    else if Utf16.isLead u then
      match rest with
      | [] => .error ending
      | .byte _ :: _ => .error .malformed
      | .unit v :: rest =>
        if Utf16.isTrail v then
          (bytes ending rest).map (String.utf8EncodeChar (Utf16.ofPair u v) ++ ·)
        else .error .malformed
    else (bytes ending rest).map (String.utf8EncodeChar (Utf16.ofSingle u) ++ ·)

def text (bs : List UInt8) : Except Fault String :=
  match String.fromUTF8? bs.toByteArray with
  | some s => .ok s
  | none => .error .malformed

/-- Reads a string after its opening quotation mark. Where it has no end, the glyphs before the
fault still count, so a stray surrogate comes before it. -/
def scan (input : List UInt8) : Scanned String :=
  match glyphs [] input with
  | (gs, .ok rest) => ⟨(bytes .malformed gs).bind text, .ok rest⟩
  | (gs, .error fault) => ⟨(bytes fault gs).bind fun _ => .error fault, .error fault⟩

end Quoted

/-! ## Numbers

A number is read digit by digit into its sign, whole part, fraction and exponent. Where its value is
read it has to fit a double, and the check follows the digits in order: as many as a word of 64 bits
can hold make up the significand, later ones of the whole part count for the exponent, and later
ones of the fraction are left out. -/

/-- A number by its digits. The exponent has a sign, true for minus. -/
structure Numeral where
  negative : Bool
  whole : List Nat
  fraction : List Nat
  exponent : Option (Bool × List Nat)
deriving DecidableEq, Repr

namespace Numeral

def isDigit (b : UInt8) : Bool := 0x30 ≤ b && b ≤ 0x39

/-- One or more digits and what follows, or the faults for a reader and for one who passes over. -/
def digits (input : List UInt8) : Except (Fault × Fault) (List Nat × List UInt8) :=
  match input.takeWhile isDigit, input with
  | [], [] => .error (.truncated, .malformed)
  | [], _ :: _ => .error (.malformed, .malformed)
  | ds, _ => .ok (ds.map (·.toNat - 0x30), input.dropWhile isDigit)

/-- The part of a number after its whole part and point. -/
def exponentOf (input : List UInt8) :
    Except (Fault × Fault) (Option (Bool × List Nat) × List UInt8) :=
  match input with
  | [] => .ok (none, [])
  | b :: rest =>
    if b = 0x65 || b = 0x45 then
      let (negative, rest) := match rest with
        | 0x2B :: rest => (false, rest)
        | 0x2D :: rest => (true, rest)
        | rest => (false, rest)
      (digits rest).map fun (ds, rest) => (some (negative, ds), rest)
    else .ok (none, input)

def ofBytes (input : List UInt8) : Except (Fault × Fault) (Numeral × List UInt8) := do
  let (negative, input) := match input with
    | 0x2D :: rest => (true, rest)
    | rest => (false, rest)
  let (whole, input) ← digits input
  if whole.head? = some 0 ∧ whole.length ≠ 1 then .error (.malformed, .malformed)
  let (fraction, input) ← match input with
    | 0x2E :: rest => digits rest
    | rest => .ok ([], rest)
  let (exponent, input) ← exponentOf input
  return (⟨negative, whole, fraction, exponent⟩, input)

def gather (significand : Nat) : List Nat → Nat × List Nat
  | [] => (significand, [])
  | d :: rest =>
    if significand * 10 + d < 0x10000000000000000 then gather (significand * 10 + d) rest
    else (significand, d :: rest)

def exceedsDouble (significand : Nat) (power : Int) : Bool :=
  if 308 < power then significand ≠ 0
  else if 0 ≤ power then
    (Float.ofNat significand * Float.ofScientific 1 false power.toNat).isInf
  else false

def isHuge (n : Numeral) : Bool :=
  let (significand, wholeLeft) := gather 0 n.whole
  let (significand, fractionLeft) := gather significand n.fraction
  let power : Int := wholeLeft.length - (n.fraction.length - fractionLeft.length : Nat)
  match n.exponent with
  | none => exceedsDouble significand power
  | some (negative, ds) =>
    let exponent := Digits.toNat 10 ds
    if 0x80000000 ≤ exponent then significand ≠ 0 && !negative
    else exceedsDouble significand (if negative then power - exponent else power + exponent)

def value (n : Numeral) : Except Fault Number :=
  if n.isHuge then .error .malformed
  else if n.fraction ≠ [] || n.exponent.isSome then .ok .other
  else
    match Digits.toNat 10 n.whole, n.negative with
    | 0, true => .ok .other
    | m, true => .ok (.whole (-m))
    | m, false => .ok (.whole m)

def scan (input : List UInt8) : Scanned Number :=
  match ofBytes input with
  | .ok (n, rest) => ⟨n.value, .ok rest⟩
  | .error (read, passed) => ⟨.error read, .error passed⟩

end Numeral

/-! ## The reader

The reader goes through the input once and keeps the containers that are open as a list of frames,
so documents may be nested to any depth. At a piece that cannot be passed over it stops: the
containers that are open end there. -/

/-- A container that is open, with its elements so far, latest first. An object has the key of the
member that is being read. -/
inductive Frame where
  | array (items : List Node)
  | object (members : List (Except Fault String × Node)) (key : Except Fault String)

def Frame.close (element : Node) (ending : Ending) : Frame → Node
  | array items => .array (element :: items).reverse ending
  | object members key => .object ((key, element) :: members).reverse ending

/-- Ends all open containers, innermost first, because of a fault inside of an element. -/
def abandon (fault : Fault) (element : Node) (frames : List Frame) : Node :=
  frames.foldl (fun element frame => frame.close element (.spoiled fault)) element

/-- What comes next: a value, the key of a member after others, or what follows a value. -/
inductive Task where
  | value
  | key (members : List (Except Fault String × Node))
  | next (element : Node)

/-- The reader part way through a document. -/
structure Reading where
  task : Task
  frames : List Frame
  input : List UInt8

def isBlankByte (b : UInt8) : Bool := b = 0x20 || b = 0x09 || b = 0x0A || b = 0x0D

def skipBlankBytes (input : List UInt8) : List UInt8 := input.dropWhile isBlankByte

def beginsValue (b : UInt8) : Bool :=
  b = 0x5B || b = 0x7B || b = 0x22 || b = 0x2D || Numeral.isDigit b || b = 0x6E || b = 0x74 ||
    b = 0x66

def word (letters : List Char) (input : List UInt8) : Except Fault (List UInt8) :=
  match letters, input with
  | [], rest => .ok rest
  | _ :: _, [] => .error .truncated
  | c :: letters, b :: rest =>
    if b.toNat = c.toNat then word letters rest else .error .malformed

/-- A scalar by what was found: with no way past it, it is broken. -/
def Scanned.toNode {α : Type} (s : Scanned α) (node : Except Fault α → Node) :
    Node × Except Fault (List UInt8) :=
  match s.rest, s.value with
  | .ok rest, value => (node value, .ok rest)
  | .error passed, .error read => (.broken read passed, .error passed)
  | .error passed, .ok _ => (.broken passed passed, .error passed)

def constant (letters : List Char) (node : Node) (input : List UInt8) :
    Node × Except Fault (List UInt8) :=
  Scanned.toNode ⟨(word letters input).map fun _ => (), word letters input⟩ fun _ => node

def scalar (input : List UInt8) : Node × Except Fault (List UInt8) :=
  match input with
  | 0x22 :: rest => (Quoted.scan rest).toNode .string
  | 0x6E :: _ => constant ['n', 'u', 'l', 'l'] .null input
  | 0x74 :: _ => constant ['t', 'r', 'u', 'e'] (.bool true) input
  | 0x66 :: _ => constant ['f', 'a', 'l', 's', 'e'] (.bool false) input
  | _ => (Numeral.scan input).toNode .number

namespace Reading

/-- One step: the reader goes on, or it has the document and the input that follows it. -/
abbrev Outcome := Reading ⊕ (Node × List UInt8)

def stop (fault : Fault) (element : Node) (frames : List Frame) : Outcome :=
  .inr (abandon fault element frames, [])

/-- Goes on to an element of an array after a bracket or a comma. Where no value begins the array
ends: by `close` and, where the input does, in the way `early`. -/
def element (items : List Node) (frames : List Frame) (early : Ending) (close : Ending → Node)
    (input : List UInt8) : Outcome :=
  match skipBlankBytes input with
  | [] => stop .truncated (close early) frames
  | b :: _ =>
    if beginsValue b then .inl ⟨.value, .array items :: frames, input⟩
    else stop .malformed (close .junk) frames

def value (frames : List Frame) (input : List UInt8) : Outcome :=
  match skipBlankBytes input with
  | [] => stop .truncated (.broken .truncated .truncated) frames
  | 0x5B :: rest =>
    match skipBlankBytes rest with
    | 0x5D :: rest => .inl ⟨.next (.array [] .closed), frames, rest⟩
    | _ => element [] frames .cut (.array []) rest
  | 0x7B :: rest =>
    match skipBlankBytes rest with
    | 0x7D :: rest => .inl ⟨.next (.object [] .closed), frames, rest⟩
    | rest => .inl ⟨.key [], frames, rest⟩
  | b :: rest =>
    if beginsValue b then
      match scalar (b :: rest) with
      | (node, .ok rest) => .inl ⟨.next node, frames, rest⟩
      | (node, .error fault) => stop fault node frames
    else stop .malformed (.broken .malformed .malformed) frames

def key (members : List (Except Fault String × Node)) (frames : List Frame)
    (input : List UInt8) : Outcome :=
  let spoil (key : Except Fault String) (fault : Fault) : Outcome :=
    stop fault ((Frame.object members key).close (.broken fault fault) (.spoiled fault)) frames
  match skipBlankBytes input with
  | [] => stop .truncated (.object members.reverse .cut) frames
  | 0x22 :: rest =>
    let name := Quoted.scan rest
    match name.rest with
    | .error fault => spoil name.value fault
    | .ok rest =>
      match skipBlankBytes rest with
      | [] => spoil name.value .truncated
      | b :: rest =>
        if b = 0x3A then .inl ⟨.value, .object members name.value :: frames, rest⟩
        else spoil name.value .malformed
  | _ => stop .malformed (.object members.reverse .junk) frames

def next (node : Node) (frames : List Frame) (input : List UInt8) : Outcome :=
  match frames with
  | [] => .inr (node, input)
  | frame :: outer =>
    let close (ending : Ending) : Node := frame.close node ending
    match skipBlankBytes input, frame with
    | [], _ => stop .truncated (close .cut) outer
    | 0x2C :: rest, .array items => element (node :: items) outer .cutAfterComma close rest
    | 0x2C :: rest, .object members key => .inl ⟨.key ((key, node) :: members), outer, rest⟩
    | 0x5D :: rest, .array _ => .inl ⟨.next (close .closed), outer, rest⟩
    | 0x7D :: rest, .object _ _ => .inl ⟨.next (close .closed), outer, rest⟩
    | _, _ => stop .malformed (close .junk) outer

def step (r : Reading) : Outcome :=
  match r.task with
  | .value => value r.frames r.input
  | .key members => key members r.frames r.input
  | .next node => next node r.frames r.input

/-- Takes at most the given number of steps. -/
def run : Nat → Reading → Node × List UInt8
  | 0, _ => (.broken .malformed .malformed, [])
  | steps + 1, r =>
    match r.step with
    | .inl r => run steps r
    | .inr result => result

end Reading

/-- The document at the beginning of the input, and what follows it. Each step but the last takes at
least one byte of the input. -/
def read (input : List UInt8) : Node × List UInt8 :=
  Reading.run (input.length + 1) ⟨.value, [], input⟩

/-! ## Values and records

Readers of JSON nodes. A record is read from an object, in which unknown members are passed over and
a known one may stand only once, or from an array with its fields in order. Fields that are missing
keep the value of an empty record, unless they are required. -/

/-- Reads a value off a node. -/
abbrev Decoder (α : Type) := Node → Except Fault α

namespace Decoder

def bool : Decoder Bool
  | .bool b => .ok b
  | node => .error node.refuse

def whole (least most : Int) : Decoder Int
  | .number (.ok (.whole n)) => if least ≤ n ∧ n ≤ most then .ok n else .error .mismatched
  | node => .error node.refuse

def int32 : Decoder Int32 :=
  fun node => (whole (-2147483648) 2147483647 node).map Int32.ofInt

def int64 : Decoder Int64 :=
  fun node => (whole (-9223372036854775808) 9223372036854775807 node).map Int64.ofInt

def uint32 : Decoder UInt32 :=
  fun node => (whole 0 4294967295 node).map fun n => n.toNat.toUInt32

def string : Decoder String
  | .string (.ok s) => .ok s
  | node => .error node.refuse

def optional {α : Type} (decode : Decoder α) : Decoder (Option α)
  | .null => .ok none
  | node => (decode node).map some

/-- The elements of an array, or null for none. -/
def list {α : Type} (decode : Decoder α) : Decoder (List α)
  | .null => .ok []
  | .array items ending => do
    let elements ← items.mapM decode
    ending.check
    return elements
  | node => .error node.refuse

/-- Ends an array after the last item that it may have. A comma is already too much. -/
def noMore (items : List Node) (ending : Ending) : Except Fault Unit :=
  match items, ending with
  | [], .closed => .ok ()
  | [], .cut => .error .truncated
  | _, _ => .error .malformed

def pair {α : Type} (decode : Decoder α) : Decoder (α × α)
  | .array (first :: second :: more) ending => do
    let a ← decode first
    let b ← decode second
    noMore more ending
    return (a, b)
  | .array few ending => do
    let _ ← few.mapM decode
    ending.check
    .error .mismatched
  | node => .error node.refuse

end Decoder

/-- A field of a record: its name, and how a record changes by the node of the field. -/
structure RecordField (ρ : Type) where
  name : String
  decode : Decoder (ρ → ρ)
  required : Bool := false

namespace RecordField

variable {ρ : Type}

def of {α : Type} (name : String) (decode : Decoder α) (set : α → ρ → ρ) : RecordField ρ :=
  ⟨name, fun node => (decode node).map set, false⟩

/-- The same field, which may not be missing. -/
def demand (f : RecordField ρ) : RecordField ρ := { f with required := true }

/-- Ends a record whose members or items were all read, given the fields that had none. -/
def finish (missing : List (RecordField ρ)) (record : ρ) : Except Fault ρ :=
  if missing.any RecordField.required then .error .mismatched else .ok record

def readItems : List (RecordField ρ) → List Node → Ending → ρ → Except Fault ρ
  | [], items, ending, record => do
    Decoder.noMore items ending
    return record
  | missing, [], ending, record => do
    ending.check
    finish missing record
  | field :: fields, item :: items, ending, record => do
    let change ← field.decode item
    readItems fields items ending (change record)

/-- Reads the fields from the members of an object, some of them seen already. -/
def readMembers (fields : List (RecordField ρ)) (seen : List String) :
    List (Except Fault String × Node) → Ending → ρ → Except Fault ρ
  | [], ending, record => do
    ending.check
    finish (fields.filter fun f => f.name ∉ seen) record
  | (key, value) :: members, ending, record => do
    let name ← key
    match fields.find? (·.name == name) with
    | none =>
      value.skip
      readMembers fields seen members ending record
    | some field =>
      if name ∈ seen then .error .mismatched
      else
        let change ← field.decode value
        readMembers fields (name :: seen) members ending (change record)

end RecordField

namespace Decoder

def record {ρ : Type} (fields : List (RecordField ρ)) (empty : ρ) : Decoder ρ
  | .object members ending => RecordField.readMembers fields [] members ending empty
  | .array items ending => RecordField.readItems fields items ending empty
  | node => .error node.refuse

end Decoder

/-- Reads a value off the first document of the input, whatever follows it. -/
def decodeFirst {α : Type} (decode : Decoder α) (input : List UInt8) : Except Fault α :=
  decode (read input).1

/-- Reads a value off the only document of the input. -/
def decodeOnly {α : Type} (decode : Decoder α) (input : List UInt8) : Except Fault α := do
  let (node, rest) := read input
  let value ← decode node
  if (skipBlankBytes rest).isEmpty then return value else .error .malformed

end TweetText.Json
