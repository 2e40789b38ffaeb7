import Geocast.Config
import Geocast.Yaml.Outline

/-!
# Configurations as text

A configuration is written as a mapping from names to settings. Reading takes the settings that
are given and the standard ones for the others, passes over names it does not know, and refuses a
name that is given twice. A whole number may also be written in base 16, 8 or 2; no quoted text
is ever a number or a truth value.
-/

namespace Geocast.Config

open Yaml (Outline)

/-- The text of a scalar that may stand for a value of a kind: a plain one, or a literal one that
is tagged with the kind. -/
def valueText? (kind : String) (s : Yaml.Scalar) : Option (List Char) :=
  match s.style with
  | .plain => some s.text
  | .literal => if s.tag = some ("tag:yaml.org,2002:" ++ kind) then some s.text else none
  | _ => none

/-- The value of a digit of a base up to 16. -/
def digitValue? (base : Nat) (c : Char) : Option Nat :=
  (Bytes.hexValue? c).filter (· < base)

/-- The value of digits of a base; at least one is needed. -/
def natural? (base : Nat) (cs : List Char) : Option Nat :=
  if cs.isEmpty then none
  else cs.foldlM (fun n c => (digitValue? base c).map (base * n + ·)) 0

/-- Whether a text of several digits starts with a zero, and so is not taken for a number. -/
def isZeroPadded (cs : List Char) : Bool :=
  1 < cs.length && cs.head? = some '0' && cs.all Char.isDigit

/-- The greatest whole number of 64 bits. -/
def maxWord : Nat := 0xffffffffffffffff

/-- The whole number that a text stands for, if it has at most 64 bits. -/
def wholeNumber? (cs : List Char) : Option Nat :=
  let unsigned := if cs.head? = some '+' then cs.drop 1 else cs
  let number := match unsigned with
    | '0' :: 'x' :: ds => natural? 16 ds
    | '0' :: 'o' :: ds => natural? 8 ds
    | '0' :: 'b' :: ds => natural? 2 ds
    | ds => if isZeroPadded ds then none else natural? 10 ds
  number.filter (· ≤ maxWord)

/-- The number that a text stands for. -/
def number? (cs : List Char) : Option Float :=
  let unsigned := if cs.head? = some '+' then cs.drop 1 else cs
  let doubled := cs.head? = some '+' && (unsigned.head? = some '+' || unsigned.head? = some '-')
  if doubled then none
  else if [".inf", ".Inf", ".INF"].contains (String.ofList unsigned) then some (1.0 / 0.0)
  else if ["-.inf", "-.Inf", "-.INF"].contains (String.ofList cs) then some (-1.0 / 0.0)
  else if [".nan", ".NaN", ".NAN"].contains (String.ofList cs) then some (0.0 / 0.0)
  else (Number.ofDecimal? unsigned).filter Float.isFinite

/-- Reads a whole number up to a bound. -/
def readNat? (bound : Nat) (s : Yaml.Scalar) : Option Nat := do
  let n ← wholeNumber? (← valueText? "int" s)
  if n ≤ bound then some n else none

/-- Reads a whole number of 64 bits. -/
def readWord? (s : Yaml.Scalar) : Option Nat := readNat? maxWord s

/-- Reads a number. -/
def readNumber? (s : Yaml.Scalar) : Option Float := do number? (← valueText? "float" s)

/-- Reads a truth value. -/
def readBool? (s : Yaml.Scalar) : Option Bool := do
  let text := String.ofList (← valueText? "bool" s)
  if ["true", "True", "TRUE"].contains text then some true
  else if ["false", "False", "FALSE"].contains text then some false
  else none

/-- Reads an address: sixteen hexadecimal digits in any kind of scalar. -/
def readAddress? (s : Yaml.Scalar) : Option Address :=
  (Bytes.ofHexDigits? s.text).bind Address.ofBytes?

/-- Reads the name of an algorithm: the text of any scalar, or a tag of the document's own on
nothing. -/
def readName? (s : Yaml.Scalar) : Option String :=
  let text := String.ofList s.text
  match s.tag.map String.toList with
  | some ('!' :: name) =>
    if s.style = .plain ∧ ["", "~", "null", "Null", "NULL"].contains text then
      some (String.ofList name)
    else none
  | _ => some text

/-- The way of forwarding towards a place with a name. -/
def nonAreaOfName (name : String) : Option NonAreaForwarding :=
  if name = "greedy" then some .greedy
  else if name = "cbf" then some .contention
  else none

/-- The way of forwarding within an area with a name. -/
def areaOfName (name : String) : Option AreaForwarding :=
  if name = "simple" then some .simple
  else if name = "cbf" then some .contention
  else none

/-- The name of a way of forwarding towards a place. -/
def nonAreaName : Option NonAreaForwarding → String
  | some .greedy => "greedy"
  | some .contention => "cbf"
  | none => "unsupported"

/-- The name of a way of forwarding within an area. -/
def areaName : Option AreaForwarding → String
  | some .simple => "simple"
  | some .contention => "cbf"
  | none => "unsupported"

/-- Gives a setting, by its name, the value of a scalar; `none` if that is no such value. A
name that no setting has changes nothing. -/
def set? (c : Config Float) (name : String) (s : Yaml.Scalar) :
    Option (Config Float) :=
  match name with
  | "local_address" => (readAddress? s).map fun v => { c with address := v }
  | "is_mobile" => (readBool? s).map fun v => { c with mobile := v }
  | "location_table_lifetime_secs" =>
    (readWord? s).map fun v => { c with tableLifetimeSecs := v }
  | "location_service_max_retrans" =>
    (readNat? 0xffffffff s).map fun v => { c with maxRequests := v }
  | "location_service_retransmit_ms" =>
    (readWord? s).map fun v => { c with retransmitMillis := v }
  | "default_hop_limit" => (readNat? 255 s).map fun v => { c with hopLimit := UInt8.ofNat v }
  | "default_packet_lifetime_secs" =>
    (readWord? s).map fun v => { c with packetLifetimeSecs := v }
  | "cbf_min_time_ms" => (readWord? s).map fun v => { c with minDelayMillis := v }
  | "cbf_max_time_ms" => (readWord? s).map fun v => { c with maxDelayMillis := v }
  | "max_communication_range" => (readNumber? s).map fun v => { c with range := v }
  | "beacon_enabled" => (readBool? s).map fun v => { c with beaconEnabled := v }
  | "beacon_interval_ms" => (readWord? s).map fun v => { c with beaconIntervalMillis := v }
  | "beacon_jitter_ms" => (readWord? s).map fun v => { c with beaconJitterMillis := v }
  | "table_sweep_interval_secs" => (readWord? s).map fun v => { c with sweepIntervalSecs := v }
  | "broadcast_queue_capacity" => (readWord? s).map fun v => { c with broadcastCapacity := v }
  | "unicast_queue_capacity" => (readWord? s).map fun v => { c with unicastCapacity := v }
  | "location_service_queue_capacity" =>
    (readWord? s).map fun v => { c with lookupCapacity := v }
  | "non_area_forwarding" => (readName? s).map fun v => { c with nonArea := nonAreaOfName v }
  | "area_forwarding" => (readName? s).map fun v => { c with area := areaOfName v }
  | _ => some c

/-- Whether a text must be quoted because it would be taken for a number. -/
def readsAsNumber (cs : List Char) : Bool :=
  (wholeNumber? cs).isSome || isZeroPadded cs || (number? cs).isSome

/-- A text as a scalar. -/
def quoteIfNumber (text : String) : String :=
  if readsAsNumber text.toList then "'" ++ text ++ "'" else text

/-- The settings with their names and values as text, in the order in which they are written. -/
def settings (c : Config Float) : List (String × String) :=
  [("local_address", quoteIfNumber c.address.toHex),
    ("is_mobile", toString c.mobile),
    ("location_table_lifetime_secs", toString c.tableLifetimeSecs),
    ("location_service_max_retrans", toString c.maxRequests),
    ("location_service_retransmit_ms", toString c.retransmitMillis),
    ("default_hop_limit", toString c.hopLimit),
    ("default_packet_lifetime_secs", toString c.packetLifetimeSecs),
    ("cbf_min_time_ms", toString c.minDelayMillis),
    ("cbf_max_time_ms", toString c.maxDelayMillis),
    ("max_communication_range", Number.configured c.range),
    ("beacon_enabled", toString c.beaconEnabled),
    ("beacon_interval_ms", toString c.beaconIntervalMillis),
    ("beacon_jitter_ms", toString c.beaconJitterMillis),
    ("table_sweep_interval_secs", toString c.sweepIntervalSecs),
    ("broadcast_queue_capacity", toString c.broadcastCapacity),
    ("unicast_queue_capacity", toString c.unicastCapacity),
    ("location_service_queue_capacity", toString c.lookupCapacity),
    ("non_area_forwarding", nonAreaName c.nonArea),
    ("area_forwarding", areaName c.area)]

/-- A configuration as text. -/
def render (c : Config Float) : String :=
  String.join ((settings c).map fun (name, value) => name ++ ": " ++ value ++ "\n")

/-- The names of all settings. -/
def settingNames : List String := (settings standard).map Prod.fst

/-- Takes in the entries of a mapping. -/
def readEntries? (c : Config Float) (seen : List String) :
    List (Option Yaml.Scalar × Option Yaml.Scalar) → Option (Config Float)
  | [] => some c
  | (none, _) :: _ => none
  | (some key, value) :: rest =>
    let name := String.ofList key.text
    if settingNames.contains name then do
      if seen.contains name then none
      readEntries? (← set? c name (← value)) (name :: seen) rest
    else readEntries? c seen rest

/-- The configuration that a document describes. A document with nothing in it describes the
standard one. -/
def ofOutline? : Outline → Option (Config Float)
  | .nothing => some standard
  | .scalar s => if s.style = .plain ∧ s.text = [] then some standard else none
  | .sequence => none
  | .mapping entries => readEntries? standard [] entries

/-- Reads a configuration, and refuses one that a router cannot run with. -/
def ofText (text : String) : Except (ConfigError Float) (Config Float) :=
  match (Outline.ofText? text).bind ofOutline? with
  | none => .error .unreadable
  | some c =>
    match c.fault? with
    | some e => .error e
    | none => .ok c

end Geocast.Config
