import Shine.Config.Schema

/-!
# Loading the configuration (`config/yaml_loader.cpp`)

`loadFromString` takes a YAML document apart. The document is the tree that yaml-cpp makes of
the text; subscripts and conversions are those of yaml-cpp 0.8, with the exceptions they
throw, and an exception ends the load with a status. The parser itself, the texts of its
exceptions, `as<int>` and the arithmetic on `double` are parameters.

- `Yaml`: the nodes of a document, and how they are asked.
- `parseInbound`, `parseOutbound`, `parseRule`: the parts of the configuration, with their
  defaults.
- `loadFromString_eq_ok` and the lemmas in front of it say what has been read when the load
  succeeds.
-/

namespace Shine

/-- A `YAML::Node`. One that is not defined stands for a key that is not there. -/
inductive Yaml where
  | undefined
  | null
  | scalar (text : Bytes)
  | sequence (items : List Yaml)
  | map (entries : List (Yaml × Yaml))

/-- A `YAML::Exception`. -/
inductive YamlException where
  | parser (message : Bytes)
  | invalidNode
  | badSubscript (key : Bytes)
  | badConversion
  deriving DecidableEq

/-- A function of the loader returns a status, or an exception passes through it. -/
inductive LoadFailure where
  | status (st : Status)
  | exception (e : YamlException)
  deriving DecidableEq

/-- A computation of the loader. -/
abbrev Loader := Except LoadFailure

/-- `if (!x.ok()) return x.status()`. -/
def Loader.ofStatus {τ : Type} (x : StatusOr τ) : Loader τ := x.mapError .status

/-- What the loader takes from outside. -/
structure LoaderEnv where
  /-- `YAML::Load`. -/
  load : Bytes → Except Bytes Yaml
  /-- `what()`. -/
  what : YamlException → Bytes
  /-- `as<int>` of a scalar. -/
  decodeInt : Bytes → Option Int
  Double : Type
  /-- `absl::SimpleAtod`. -/
  simpleAtod : Bytes → Option Double
  /-- The product with a number of the source. -/
  mul : Double → Nat → Double
  /-- `static_cast<std::int64_t>`. -/
  toInt64 : Double → Int
  /-- The contents of a file, if it can be opened. -/
  readFile : Bytes → Option Bytes

namespace Yaml

/-- `IsDefined()`. -/
def isDefined : Yaml → Bool
  | .undefined => false
  | _ => true

/-- The node is the key. -/
def isKey (key : Bytes) : Yaml → Bool
  | .scalar text => text = key
  | _ => false

/-- `n[key]`. -/
def get (n : Yaml) (key : Bytes) : Loader Yaml :=
  match n with
  | .undefined => .error (.exception .invalidNode)
  | .null | .sequence _ => .ok .undefined
  | .scalar _ => .error (.exception (.badSubscript key))
  | .map entries => .ok (((entries.find? (·.1.isKey key)).map (·.2)).getD .undefined)

/-- `as<std::string>()`. -/
def asString : Yaml → Loader Bytes
  | .undefined => .error (.exception .invalidNode)
  | .null => .ok (ascii "null")
  | .scalar text => .ok text
  | .sequence _ | .map _ => .error (.exception .badConversion)

/-- `as<std::string>(fallback)`. -/
def asStringOr (fallback : Bytes) : Yaml → Bytes
  | .null => ascii "null"
  | .scalar text => text
  | _ => fallback

/-- `as<int>(fallback)`. -/
def asIntOr (env : LoaderEnv) (fallback : Int) : Yaml → Int
  | .scalar text => (env.decodeInt text).getD fallback
  | _ => fallback

/-- What a loop over the node goes through. The items of a map are pairs, which are not
defined as nodes. -/
def items : Yaml → List Yaml
  | .sequence items => items
  | .map entries => entries.map fun _ => .undefined
  | _ => []

/-- `n[key]`, unless `!n || !n[key]`. -/
def find (n : Yaml) (key : Bytes) : Loader (Option Yaml) :=
  if !n.isDefined then .ok none
  else do
    let v ← n.get key
    return if v.isDefined then some v else none

/-- The loop that converts the items under a key. -/
def texts (n : Yaml) (key : Bytes) : Loader (List Bytes) := do
  let v ← n.get key
  v.items.mapM asString

end Yaml

/-- `getStr`. -/
def getStr (n : Yaml) (key fallback : Bytes) : Loader Bytes := do
  match ← n.find key with
  | none => return fallback
  | some v => return v.asStringOr fallback

/-- `getOr<int>`. -/
def getInt (env : LoaderEnv) (n : Yaml) (key : Bytes) (fallback : Int) : Loader Int := do
  match ← n.find key with
  | none => return fallback
  | some v => return v.asIntOr env fallback

/-! ## Durations and sizes -/

/-- The factors of a unit of time, in the order in which they are multiplied. -/
def durationUnit (unit : Bytes) : Option (List Nat) :=
  if unit = ascii "ms" then some []
  else if unit = ascii "s" ∨ unit = [] then some [1000]
  else if unit = ascii "m" then some [60, 1000]
  else if unit = ascii "h" then some [3600, 1000]
  else none

/-- `parseDuration`, in milliseconds. -/
def parseDuration (env : LoaderEnv) (s : Bytes) : StatusOr Int :=
  let number := s.takeWhile fun b => isDigit b || b = 46
  let unit := s.dropWhile fun b => isDigit b || b = 46
  if s = [] then .error (.invalidArgument (ascii "empty duration"))
  else if number = [] then .error (.invalidArgument (ascii "bad duration: " ++ s))
  else match env.simpleAtod number with
    | none => .error (.invalidArgument (ascii "bad number"))
    | some val =>
      match durationUnit unit with
      | none => .error (.invalidArgument (ascii "unknown unit: " ++ unit))
      | some factors => .ok (env.toInt64 (factors.foldl env.mul val))

/-- `parseSeconds`. -/
def parseSeconds (env : LoaderEnv) (n : Yaml) (key : Bytes) (fallback : Int) : Loader Int := do
  match ← n.find key with
  | none => return fallback
  | some v => do
    let s ← v.asString
    let ms ← Loader.ofStatus (parseDuration env s)
    return ms.tdiv 1000

/-- The factor of a unit of size. -/
def sizeUnit (unit : Bytes) : Option Nat :=
  if unit = [] ∨ unit = ascii "B" then some 1
  else if unit = ascii "K" ∨ unit = ascii "KB" ∨ unit = ascii "KiB" then some 1024
  else if unit = ascii "M" ∨ unit = ascii "MB" ∨ unit = ascii "MiB" then some (1024 * 1024)
  else if unit = ascii "G" ∨ unit = ascii "GB" ∨ unit = ascii "GiB" then some (1024 * 1024 * 1024)
  else none

/-- `parseSize`. The product is one of `std::size_t`. -/
def parseSize (s : Bytes) : StatusOr UInt64 :=
  let number := s.takeWhile isDigit
  let unit := s.dropWhile isDigit
  if s = [] then .error (.invalidArgument (ascii "empty size"))
  else if number = [] then .error (.invalidArgument (ascii "bad size: " ++ s))
  else match simpleAtoi i64Min i64Max number with
    | none => .error (.invalidArgument (ascii "bad number"))
    | some val =>
      match sizeUnit unit with
      | none => .error (.invalidArgument (ascii "unknown size unit: " ++ unit))
      | some mult => .ok (UInt64.ofInt val * UInt64.ofNat mult)

/-- `parseSizeNode`. -/
def parseSizeNode (n : Yaml) (key : Bytes) (fallback : UInt64) : Loader UInt64 := do
  match ← n.find key with
  | none => return fallback
  | some v => do
    let s ← v.asString
    Loader.ofStatus (parseSize s)

/-! ## The parts of the configuration -/

/-- `InboundConfig`, with the options of its links. -/
structure InboundSettings extends InboundConfig where
  password : Bytes
  maxPayload : UInt64
  initWindow : UInt32
  pingInterval : Int
  pongTimeout : Int
  handshakeTimeout : Int
  deriving DecidableEq

/-- `OutboundConfig`, with the options of its links. -/
structure OutboundSettings extends OutboundConfig where
  password : Bytes
  poolSize : UInt64
  initWindow : UInt32
  pingInterval : Int
  pongTimeout : Int
  handshakeTimeout : Int
  deriving DecidableEq

/-- `Config`. -/
structure Settings where
  logLevel : Bytes
  logFormat : Bytes
  ioThreads : UInt64
  gracefulTimeout : Int
  metricsListen : Bytes
  metricsPath : Bytes
  inbounds : List InboundSettings
  outbounds : List OutboundSettings
  route : RouteConfig
  deriving DecidableEq

/-- What `validate` looks at. -/
def Settings.config (c : Settings) : Config where
  inbounds := c.inbounds.map (·.toInboundConfig)
  outbounds := c.outbounds.map (·.toOutboundConfig)
  route := c.route

/-- The default of `max_payload`. -/
def defaultMaxPayload : UInt64 := 512 * 1024 * 1024

/-- The default of `init_window`. -/
def defaultInitWindow : UInt32 := 256 * 1024

/-- `parseInbound`. -/
def parseInbound (env : LoaderEnv) (n : Yaml) : Loader InboundSettings := do
  let tag ← getStr n (ascii "tag") []
  let protocol ← getStr n (ascii "protocol") []
  let listen ← getStr n (ascii "listen") []
  let password ← getStr n (ascii "password") []
  let user ← getStr n (ascii "user") []
  let pass ← getStr n (ascii "pass") []
  let maxPayload ← parseSizeNode n (ascii "max_payload") defaultMaxPayload
  let initWindow ← parseSizeNode n (ascii "init_window") defaultInitWindow.toUInt64
  let pingInterval ← parseSeconds env n (ascii "ping_interval") 15
  let pongTimeout ← parseSeconds env n (ascii "pong_timeout") 10
  let handshakeTimeout ← parseSeconds env n (ascii "handshake_timeout") 5
  return {
    tag, protocol, listen, user, pass, password, maxPayload
    initWindow := initWindow.toUInt32
    pingInterval, pongTimeout, handshakeTimeout }

/-- `parseOutbound`. -/
def parseOutbound (env : LoaderEnv) (n : Yaml) : Loader OutboundSettings := do
  let tag ← getStr n (ascii "tag") []
  let protocol ← getStr n (ascii "protocol") []
  let server ← getStr n (ascii "server") []
  let password ← getStr n (ascii "password") []
  let user ← getStr n (ascii "user") []
  let pass ← getStr n (ascii "pass") []
  let poolSize ← getInt env n (ascii "pool_size") 1
  let initWindow ← parseSizeNode n (ascii "init_window") defaultInitWindow.toUInt64
  let pingInterval ← parseSeconds env n (ascii "ping_interval") 15
  let pongTimeout ← parseSeconds env n (ascii "pong_timeout") 10
  let handshakeTimeout ← parseSeconds env n (ascii "handshake_timeout") 5
  return {
    tag, protocol, server, user, pass, password
    poolSize := UInt64.ofInt poolSize
    initWindow := initWindow.toUInt32
    pingInterval, pongTimeout, handshakeTimeout }

namespace RuleConfig

/-- The body of the loop over `domain`. -/
def addDomain (r : RuleConfig) (d : Bytes) : RuleConfig :=
  if ascii "geosite:" <+: d then { r with geosite := r.geosite ++ [d.drop 8] }
  else if ascii "domain:" <+: d then { r with domainSuffix := r.domainSuffix ++ [d.drop 7] }
  else if ascii "full:" <+: d then { r with domainExact := r.domainExact ++ [d.drop 5] }
  else { r with domainExact := r.domainExact ++ [d] }

/-- The body of the loop over `ip`. -/
def addIp (r : RuleConfig) (ip : Bytes) : RuleConfig :=
  if ascii "geoip:" <+: ip then { r with geoip := r.geoip ++ [ip.drop 6] }
  else { r with cidrs := r.cidrs ++ [ip] }

end RuleConfig

/-- The inbound of a rule. -/
def parseInboundTag (n : Yaml) : Loader (Option Bytes) := do
  let v ← n.get (ascii "inbound")
  if v.isDefined then do
    let tag ← v.asString
    return some tag
  else return none

/-- `parseRule`. -/
def parseRule (n : Yaml) : Loader RuleConfig := do
  let inboundTag ← parseInboundTag n
  let domain ← n.texts (ascii "domain")
  let suffix ← n.texts (ascii "domain_suffix")
  let ip ← n.texts (ascii "ip")
  let cidr ← n.texts (ascii "cidr")
  let geoip ← n.texts (ascii "geoip")
  let geosite ← n.texts (ascii "geosite")
  let outbound ← getStr n (ascii "outbound") []
  let named := domain.foldl RuleConfig.addDomain ⟨inboundTag, [], [], [], [], [], []⟩
  let r := ip.foldl RuleConfig.addIp { named with domainSuffix := named.domainSuffix ++ suffix }
  return {
    r with
    cidrs := r.cidrs ++ cidr
    geoip := r.geoip ++ geoip
    geosite := r.geosite ++ geosite
    outboundTag := outbound }

/-- The part of `loadFromString` for `route`. -/
def parseRoute (r : Yaml) : Loader RouteConfig :=
  if !r.isDefined then return ⟨[], [], [], []⟩
  else do
    let geoipPath ← getStr r (ascii "geoip_path") []
    let geositePath ← getStr r (ascii "geosite_path") []
    let rr ← r.get (ascii "rules")
    let rules ← rr.items.mapM parseRule
    let defaultOutbound ← getStr r (ascii "default") []
    return ⟨geoipPath, geositePath, rules, defaultOutbound⟩

/-- The body of `loadFromString`, once the text has been parsed. -/
def parseRoot (env : LoaderEnv) (root : Yaml) : Loader Settings := do
  let l ← root.get (ascii "log")
  let logLevel ← getStr l (ascii "level") (ascii "info")
  let logFormat ← getStr l (ascii "format") (ascii "text")
  let s ← root.get (ascii "server")
  let ioThreads ← getInt env s (ascii "io_threads") 0
  let gracefulTimeout ← parseSeconds env s (ascii "graceful_timeout") 30
  let m ← root.get (ascii "metrics")
  let metricsListen ← getStr m (ascii "listen") (ascii "127.0.0.1:9100")
  let metricsPath ← getStr m (ascii "path") (ascii "/metrics")
  let ins ← root.get (ascii "inbounds")
  let inbounds ← ins.items.mapM (parseInbound env)
  let outs ← root.get (ascii "outbounds")
  let outbounds ← outs.items.mapM (parseOutbound env)
  let r ← root.get (ascii "route")
  let route ← parseRoute r
  let c : Settings := {
    logLevel, logFormat, gracefulTimeout, metricsListen, metricsPath, inbounds, outbounds, route
    ioThreads := UInt64.ofInt ioThreads }
  Loader.ofStatus c.config.validate
  return c

/-- `loadFromString`. -/
def loadFromString (env : LoaderEnv) (content : Bytes) : StatusOr Settings :=
  let loaded : Loader Settings := do
    let root ← (env.load content).mapError fun message => .exception (.parser message)
    parseRoot env root
  match loaded with
  | .ok c => .ok c
  | .error (.status st) => .error st
  | .error (.exception e) => .error (.invalidArgument (ascii "yaml parse: " ++ env.what e))

/-- `loadFromFile`. -/
def loadFromFile (env : LoaderEnv) (path : Bytes) : StatusOr Settings :=
  match env.readFile path with
  | none => .error (.notFound (ascii "cannot open config file: " ++ path))
  | some content => loadFromString env content

/-! ## What has been read -/

section Read

variable {env : LoaderEnv} {n root : Yaml} {key : Bytes}

theorem ofStatus_eq_ok {τ : Type} {x : StatusOr τ} {a : τ} :
    Loader.ofStatus x = .ok a ↔ x = .ok a := by
  cases x with
  | error st => simp [Loader.ofStatus, Except.mapError]
  | ok b => simp [Loader.ofStatus, Except.mapError]

/-- A size is read from the text under its key. -/
theorem parseSizeNode_eq_ok {fallback size : UInt64} :
    parseSizeNode n key fallback = .ok size
      ↔ (n.find key = .ok none ∧ size = fallback) ∨
        ∃ v s, n.find key = .ok (some v) ∧ v.asString = .ok s ∧ parseSize s = .ok size := by
  rw [parseSizeNode, bind_eq_ok]
  constructor
  · rintro ⟨found, hfound, h⟩
    cases found with
    | none => exact .inl ⟨hfound, (Except.ok.inj h).symm⟩
    | some v =>
      obtain ⟨s, hs, h⟩ := bind_eq_ok.mp h
      exact .inr ⟨v, s, hfound, hs, ofStatus_eq_ok.mp h⟩
  · rintro (⟨hfound, rfl⟩ | ⟨v, s, hfound, hs, h⟩)
    · exact ⟨none, hfound, rfl⟩
    · exact ⟨some v, hfound, bind_eq_ok.mpr ⟨s, hs, ofStatus_eq_ok.mpr h⟩⟩

theorem parseInbound_sizes {c : InboundSettings} (h : parseInbound env n = .ok c) :
    parseSizeNode n (ascii "max_payload") defaultMaxPayload = .ok c.maxPayload ∧
      ∃ size, parseSizeNode n (ascii "init_window") defaultInitWindow.toUInt64 = .ok size ∧
        c.initWindow = size.toUInt32 := by
  -- tag, protocol, listen, password, user and pass come first
  iterate 6 obtain ⟨_, -, h⟩ := bind_eq_ok.mp h
  obtain ⟨maxPayload, hmax, h⟩ := bind_eq_ok.mp h
  obtain ⟨initWindow, hinit, h⟩ := bind_eq_ok.mp h
  iterate 3 obtain ⟨_, -, h⟩ := bind_eq_ok.mp h
  cases h
  exact ⟨hmax, initWindow, hinit, rfl⟩

theorem parseOutbound_sizes {c : OutboundSettings} (h : parseOutbound env n = .ok c) :
    ∃ size, parseSizeNode n (ascii "init_window") defaultInitWindow.toUInt64 = .ok size ∧
      c.initWindow = size.toUInt32 := by
  iterate 7 obtain ⟨_, -, h⟩ := bind_eq_ok.mp h
  obtain ⟨initWindow, hinit, h⟩ := bind_eq_ok.mp h
  iterate 3 obtain ⟨_, -, h⟩ := bind_eq_ok.mp h
  cases h
  exact ⟨initWindow, hinit, rfl⟩

/-- The inbounds and outbounds are those of the document, one by one. -/
theorem parseRoot_bounds {c : Settings} (h : parseRoot env root = .ok c) :
    (∃ ins, root.get (ascii "inbounds") = .ok ins ∧
        List.Forall₂ (fun n i => parseInbound env n = .ok i) ins.items c.inbounds) ∧
      ∃ outs, root.get (ascii "outbounds") = .ok outs ∧
        List.Forall₂ (fun n o => parseOutbound env n = .ok o) outs.items c.outbounds := by
  -- log, server and metrics come first
  iterate 9 obtain ⟨_, -, h⟩ := bind_eq_ok.mp h
  obtain ⟨ins, hins, h⟩ := bind_eq_ok.mp h
  obtain ⟨inbounds, hinbounds, h⟩ := bind_eq_ok.mp h
  obtain ⟨outs, houts, h⟩ := bind_eq_ok.mp h
  obtain ⟨outbounds, houtbounds, h⟩ := bind_eq_ok.mp h
  iterate 3 obtain ⟨_, -, h⟩ := bind_eq_ok.mp h
  cases h
  exact ⟨⟨ins, hins, mapM_eq_ok.mp hinbounds⟩, outs, houts, mapM_eq_ok.mp houtbounds⟩

/-- **A load that succeeds has parsed the text and read the document.** -/
theorem loadFromString_eq_ok {content : Bytes} {c : Settings} :
    loadFromString env content = .ok c
      ↔ ∃ root, env.load content = .ok root ∧ parseRoot env root = .ok c := by
  rw [loadFromString]
  cases hload : env.load content with
  | error message => simp [bind, Except.bind, Except.mapError]
  | ok root =>
    show (match parseRoot env root with
      | .ok c => .ok c
      | .error (.status st) => .error st
      | .error (.exception e) => .error (.invalidArgument (ascii "yaml parse: " ++ env.what e)) :
        StatusOr Settings) = .ok c ↔ _
    cases hroot : parseRoot env root with
    | ok c' => simp [hroot]
    | error e => cases e <;> simp [hroot]

end Read

/-- A loader for which every text is the document `root`, and that knows no other number. -/
def LoaderEnv.constant (root : Yaml) : LoaderEnv where
  load _ := .ok root
  what _ := []
  decodeInt _ := none
  Double := Nat
  simpleAtod _ := none
  mul := (· * ·)
  toInt64 := Int.ofNat
  readFile _ := none

end Shine
