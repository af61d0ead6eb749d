import SelectServer.CLib.Numbers
import SelectServer.Shared.Receive
import SelectServer.Systems.Options

/-!
# The arguments of the three programs

`parse_arguments` of `server/server.c`, `client/client.c` and
`heartbeat_client/heartbeat_client.c` read the words behind the name of the program in the same
way. Each has its own options; most of them are copied with `strcpy` into an array of `main`.

Each program starts exactly on lines of settings that it takes, and with the last value of each
option; the addresses that the client defaults to depend on its mode, wherever that stands
(`client_arguments`, `server_arguments`). It writes past an array exactly if, behind such
settings, a value as long as its array comes.
-/

namespace SelectServer

open CLib Systems

/-! ## Options -/

/-- `INET_ADDRSTRLEN`. -/
def inetAddrStrLen : Nat := 16

/-- `PORTSTRLEN`. -/
def portStrLen : Nat := 6

/-- The words that end the reading with a text on the screen. -/
def showOptions : List (List UInt8) := [bytes "--help", bytes "--version"]

section Options

variable {σ : Type}

/-- `strcpy` of a value into an array. -/
def copyCheck (size : Nat) (value : List UInt8) : Check :=
  if value.length < size then .taken else .fault

/-- An option whose value is copied into an array. -/
def copyOption (name : String) (size : Nat) (set : List UInt8 → σ → σ) :
    CommandOption (List UInt8) σ := ⟨bytes name, copyCheck size, set⟩

/-- An option whose value is read by `atoi`. -/
def atoiOption (name : String) (set : Int → σ → σ) : CommandOption (List UInt8) σ :=
  ⟨bytes name, fun _ => .taken, fun value => set (atoi value)⟩

/-- What is copied into an array fits it. -/
theorem length_lastSetting_lt {options : List (CommandOption (List UInt8) σ)}
    (h : Separate showOptions options) {name : String} {size : Nat} {set : List UInt8 → σ → σ}
    (ho : copyOption name size set ∈ options) {default : List UInt8}
    (hdefault : default.length < size) {settings : List (List UInt8 × List UInt8)}
    (hsettings : ∀ p ∈ settings, Checks options .taken p) :
    (lastSetting some (bytes name) default settings).length < size := by
  refine h.lastSetting_of_taken (P := fun v : List UInt8 => v.length < size) ho hdefault ?_
    hsettings
  intro v b hcheck hread
  obtain rfl := Option.some.inj hread
  simp only [copyOption, copyCheck] at hcheck
  split at hcheck
  · assumption
  · cases hcheck

end Options

/-! ## The server -/

/-- What `parse_arguments` of the server sets. -/
@[ext] structure ServerArguments where
  localIp : List UInt8
  localPortTcp : List UInt8
  localPortUdp : List UInt8
  localPortTcpHttp : List UInt8
  threadCount : Int
  queueSize : Int
  deriving DecidableEq

/-- What `main` of the server sets before. -/
def ServerArguments.default : ServerArguments where
  localIp := bytes "127.0.0.1"
  localPortTcp := bytes "3490"
  localPortUdp := bytes "3491"
  localPortTcpHttp := bytes "3030"
  threadCount := 10
  queueSize := 20

/-- The options of the server. -/
def serverOptions : List (CommandOption (List UInt8) ServerArguments) :=
  [copyOption "--local-ip" inetAddrStrLen fun v a => { a with localIp := v },
    copyOption "--local-port-tcp" portStrLen fun v a => { a with localPortTcp := v },
    copyOption "--local-port-udp" portStrLen fun v a => { a with localPortUdp := v },
    copyOption "--local-port-tcp-http" portStrLen fun v a => { a with localPortTcpHttp := v },
    atoiOption "--threads" fun v a => { a with threadCount := v },
    atoiOption "--queue" fun v a => { a with queueSize := v }]

/-- `parse_arguments` of the server, on the words behind the name of the program. -/
def parseServerArguments (args : List (List UInt8)) : Parsed ServerArguments :=
  parseOptions showOptions serverOptions .default args

/-- Settings of the server leave the last value of each option. -/
theorem foldl_serverOptions (settings : List (List UInt8 × List UInt8)) :
    settings.foldl (assign serverOptions) .default =
      { localIp := lastSetting some (bytes "--local-ip") (bytes "127.0.0.1") settings
        localPortTcp := lastSetting some (bytes "--local-port-tcp") (bytes "3490") settings
        localPortUdp := lastSetting some (bytes "--local-port-udp") (bytes "3491") settings
        localPortTcpHttp :=
          lastSetting some (bytes "--local-port-tcp-http") (bytes "3030") settings
        threadCount := lastSetting (some ∘ atoi) (bytes "--threads") 10 settings
        queueSize := lastSetting (some ∘ atoi) (bytes "--queue") 20 settings } := by
  have hlocalIp : IsField serverOptions ServerArguments.localIp (bytes "--local-ip") some :=
    ⟨by decide, fun _ _ => rfl, fun _ _ => rfl, fun _ _ => rfl, fun _ _ => rfl, fun _ _ => rfl,
      fun _ _ => rfl⟩
  have htcp : IsField serverOptions ServerArguments.localPortTcp (bytes "--local-port-tcp")
      some :=
    ⟨by decide, fun _ _ => rfl, fun _ _ => rfl, fun _ _ => rfl, fun _ _ => rfl, fun _ _ => rfl,
      fun _ _ => rfl⟩
  have hudp : IsField serverOptions ServerArguments.localPortUdp (bytes "--local-port-udp")
      some :=
    ⟨by decide, fun _ _ => rfl, fun _ _ => rfl, fun _ _ => rfl, fun _ _ => rfl, fun _ _ => rfl,
      fun _ _ => rfl⟩
  have hhttp : IsField serverOptions ServerArguments.localPortTcpHttp
      (bytes "--local-port-tcp-http") some :=
    ⟨by decide, fun _ _ => rfl, fun _ _ => rfl, fun _ _ => rfl, fun _ _ => rfl, fun _ _ => rfl,
      fun _ _ => rfl⟩
  have hthreads : IsField serverOptions ServerArguments.threadCount (bytes "--threads")
      (some ∘ atoi) :=
    ⟨by decide, fun _ _ => rfl, fun _ _ => rfl, fun _ _ => rfl, fun _ _ => rfl, fun _ _ => rfl,
      fun _ _ => rfl⟩
  have hqueue : IsField serverOptions ServerArguments.queueSize (bytes "--queue")
      (some ∘ atoi) :=
    ⟨by decide, fun _ _ => rfl, fun _ _ => rfl, fun _ _ => rfl, fun _ _ => rfl, fun _ _ => rfl,
      fun _ _ => rfl⟩
  exact ServerArguments.ext (hlocalIp.get_foldl settings _) (htcp.get_foldl settings _)
    (hudp.get_foldl settings _) (hhttp.get_foldl settings _) (hthreads.get_foldl settings _)
    (hqueue.get_foldl settings _)

theorem separate_serverOptions : Separate showOptions serverOptions := ⟨by decide, by decide⟩

/-- The arrays of `main` hold what was copied into them. -/
structure ServerArguments.Fits (a : ServerArguments) : Prop where
  localIp : a.localIp.length < inetAddrStrLen
  localPortTcp : a.localPortTcp.length < portStrLen
  localPortUdp : a.localPortUdp.length < portStrLen
  localPortTcpHttp : a.localPortTcpHttp.length < portStrLen

theorem serverArguments_fits {args : List (List UInt8)} {a : ServerArguments}
    (h : parseServerArguments args = .done a) : a.Fits := by
  obtain ⟨settings, -, hsettings, rfl⟩ := separate_serverOptions.done_iff.mp h
  rw [foldl_serverOptions]
  have hfits : ∀ {name size set default}, copyOption name size set ∈ serverOptions →
      default.length < size → (lastSetting some (bytes name) default settings).length < size :=
    fun ho hdefault => length_lastSetting_lt separate_serverOptions ho hdefault hsettings
  constructor
  · exact hfits (.head _) (by decide)
  · exact hfits (.tail _ (.head _)) (by decide)
  · exact hfits (.tail _ (.tail _ (.head _))) (by decide)
  · exact hfits (.tail _ (.tail _ (.tail _ (.head _)))) (by decide)

/-- The server starts exactly on lines of settings that it takes, with the last value of each
option, and its arrays hold them; and it writes past an array exactly if a value that does not
fit comes behind such settings. -/
theorem server_arguments (args : List (List UInt8)) :
    (∀ a, parseServerArguments args = .done a ↔
      ∃ settings, args = settingWords settings ∧
        (∀ p ∈ settings, Checks serverOptions .taken p) ∧
        a =
          { localIp := lastSetting some (bytes "--local-ip") (bytes "127.0.0.1") settings
            localPortTcp := lastSetting some (bytes "--local-port-tcp") (bytes "3490") settings
            localPortUdp := lastSetting some (bytes "--local-port-udp") (bytes "3491") settings
            localPortTcpHttp :=
              lastSetting some (bytes "--local-port-tcp-http") (bytes "3030") settings
            threadCount := lastSetting (some ∘ atoi) (bytes "--threads") 10 settings
            queueSize := lastSetting (some ∘ atoi) (bytes "--queue") 20 settings }) ∧
      (∀ a, parseServerArguments args = .done a → a.Fits) ∧
      (parseServerArguments args = .fault ↔
        ∃ settings p rest, args = settingWords settings ++ settingWords [p] ++ rest ∧
          (∀ q ∈ settings, Checks serverOptions .taken q) ∧ Checks serverOptions .fault p) := by
  refine ⟨fun a => ?_, fun a => serverArguments_fits, separate_serverOptions.fault_iff⟩
  simp only [parseServerArguments, separate_serverOptions.done_iff, foldl_serverOptions]

/-! ## The client -/

/-- What `parse_arguments` of the client sets. -/
@[ext] structure ClientArguments where
  externalIp : List UInt8
  externalPort : List UInt8
  mode : Int
  resource : List UInt8
  deriving DecidableEq

/-- What `main` of the client sets before. -/
def ClientArguments.initial : ClientArguments := ⟨[], [], 0, []⟩

/-- The modes of the client. -/
def modeCheck (value : List UInt8) : Check :=
  if value = bytes "0" ∨ value = bytes "1" then .taken else .refused

/-- The root of the site is not copied: it is what is asked for without a resource. -/
def resourceCheck (value : List UInt8) : Check :=
  if value = bytes "/" then .taken else copyCheck defaultBufferSize value

/-- The options of the client. -/
def clientOptions : List (CommandOption (List UInt8) ClientArguments) :=
  [copyOption "--external-ip" inetAddrStrLen fun v a => { a with externalIp := v },
    copyOption "--external-port" portStrLen fun v a => { a with externalPort := v },
    ⟨bytes "--mode", modeCheck, fun v a => { a with mode := atoi v }⟩,
    ⟨bytes "--resource", resourceCheck, fun v a =>
      if v ≠ bytes "/" then { a with resource := v } else a⟩]

/-- `parse_arguments` of the client, on the words behind the name of the program. -/
def parseClientArguments (args : List (List UInt8)) : Parsed ClientArguments :=
  parseOptions showOptions clientOptions .initial args

/-- What `main` of the client puts in the place of an address or a port that is empty. -/
def ClientArguments.withDefaults (a : ClientArguments) : ClientArguments where
  externalIp :=
    if a.externalIp = [] then if a.mode = 0 then bytes "127.0.0.1" else bytes "0.0.0.0"
    else a.externalIp
  externalPort :=
    if a.externalPort = [] then if a.mode = 0 then bytes "3490" else bytes "3030"
    else a.externalPort
  mode := a.mode
  resource := a.resource

/-- The first half of `main` of the client, up to `setup_client`. -/
def clientArguments (args : List (List UInt8)) : Parsed ClientArguments :=
  match parseClientArguments args with
  | .done a => .done a.withDefaults
  | .shown => .shown
  | .refused => .refused
  | .fault => .fault

theorem foldl_clientOptions (settings : List (List UInt8 × List UInt8)) :
    settings.foldl (assign clientOptions) .initial =
      { externalIp := lastSetting some (bytes "--external-ip") [] settings
        externalPort := lastSetting some (bytes "--external-port") [] settings
        mode := lastSetting (some ∘ atoi) (bytes "--mode") 0 settings
        resource := lastSetting (fun v => if v ≠ bytes "/" then some v else none)
          (bytes "--resource") [] settings } := by
  have hkept : ∀ {β : Type} (get : ClientArguments → β) (v : List UInt8) (a : ClientArguments),
      get { a with resource := v } = get a →
        get (if v ≠ bytes "/" then { a with resource := v } else a) = get a := by
    intro β get v a hget
    split
    · exact hget
    · rfl
  have hip : IsField clientOptions ClientArguments.externalIp (bytes "--external-ip") some :=
    ⟨by decide, fun _ _ => rfl, fun _ _ => rfl, fun _ _ => rfl,
      fun v a => hkept ClientArguments.externalIp v a rfl⟩
  have hport : IsField clientOptions ClientArguments.externalPort (bytes "--external-port")
      some :=
    ⟨by decide, fun _ _ => rfl, fun _ _ => rfl, fun _ _ => rfl,
      fun v a => hkept ClientArguments.externalPort v a rfl⟩
  have hmode : IsField clientOptions ClientArguments.mode (bytes "--mode") (some ∘ atoi) :=
    ⟨by decide, fun _ _ => rfl, fun _ _ => rfl, fun _ _ => rfl,
      fun v a => hkept ClientArguments.mode v a rfl⟩
  have hresource : IsField clientOptions ClientArguments.resource (bytes "--resource")
      fun v => if v ≠ bytes "/" then some v else none :=
    ⟨by decide, fun _ _ => rfl, fun _ _ => rfl, fun _ _ => rfl, fun v a => by
      show (if v ≠ bytes "/" then { a with resource := v } else a).resource =
        (if v ≠ bytes "/" then some v else none).getD a.resource
      split <;> rfl⟩
  exact ClientArguments.ext (hip.get_foldl settings _) (hport.get_foldl settings _)
    (hmode.get_foldl settings _) (hresource.get_foldl settings _)

theorem separate_clientOptions : Separate showOptions clientOptions := ⟨by decide, by decide⟩

/-- The arrays of `main` hold the strings, and one of its two modes is chosen. -/
structure ClientArguments.Fits (a : ClientArguments) : Prop where
  externalIp : a.externalIp.length < inetAddrStrLen
  externalPort : a.externalPort.length < portStrLen
  mode : a.mode = 0 ∨ a.mode = 1
  resource : a.resource.length < defaultBufferSize

theorem clientArguments_fits {args : List (List UInt8)} {a : ClientArguments}
    (h : parseClientArguments args = .done a) : a.Fits := by
  obtain ⟨settings, -, hsettings, rfl⟩ := separate_clientOptions.done_iff.mp h
  rw [foldl_clientOptions]
  constructor
  · exact length_lastSetting_lt separate_clientOptions (.head _) (by decide) hsettings
  · exact length_lastSetting_lt separate_clientOptions (.tail _ (.head _)) (by decide) hsettings
  · refine separate_clientOptions.lastSetting_of_taken (P := fun mode => mode = 0 ∨ mode = 1)
      (.tail _ (.tail _ (.head _))) (Or.inl rfl) ?_ hsettings
    intro v mode hcheck hread
    obtain rfl := Option.some.inj hread
    simp only [modeCheck] at hcheck
    split at hcheck
    · rename_i hvalue
      rcases hvalue with rfl | rfl
      · exact Or.inl (by decide)
      · exact Or.inr (by decide)
    · cases hcheck
  · have hread : ∀ v b : List UInt8, resourceCheck v = .taken →
        (if v ≠ bytes "/" then some v else none) = some b → b.length < defaultBufferSize := by
      intro v b hcheck hread
      obtain ⟨hne, rfl⟩ : v ≠ bytes "/" ∧ v = b := by simpa using hread
      simp only [resourceCheck, if_neg hne, copyCheck] at hcheck
      split at hcheck
      · assumption
      · cases hcheck
    have hdefault : ([] : List UInt8).length < defaultBufferSize := by decide
    exact separate_clientOptions.lastSetting_of_taken
      (P := fun v : List UInt8 => v.length < defaultBufferSize)
      (.tail _ (.tail _ (.tail _ (.head _)))) hdefault hread hsettings

theorem ClientArguments.Fits.withDefaults {a : ClientArguments} (h : a.Fits) :
    a.withDefaults.Fits where
  externalIp := by
    unfold ClientArguments.withDefaults
    simp only
    split_ifs
    · decide
    · decide
    · exact h.externalIp
  externalPort := by
    unfold ClientArguments.withDefaults
    simp only
    split_ifs
    · decide
    · decide
    · exact h.externalPort
  mode := h.mode
  resource := h.resource

/-- The client starts exactly on lines of settings that it takes, with the last value of each
option, and with the addresses of its mode where there is none; its arrays hold them, and its
mode is one of the two. It writes past an array exactly if a value that does not fit comes
behind such settings. -/
theorem client_arguments (args : List (List UInt8)) :
    (∀ a, clientArguments args = .done a ↔
      ∃ settings, args = settingWords settings ∧
        (∀ p ∈ settings, Checks clientOptions .taken p) ∧
        a = ClientArguments.withDefaults
          { externalIp := lastSetting some (bytes "--external-ip") [] settings
            externalPort := lastSetting some (bytes "--external-port") [] settings
            mode := lastSetting (some ∘ atoi) (bytes "--mode") 0 settings
            resource := lastSetting (fun v => if v ≠ bytes "/" then some v else none)
              (bytes "--resource") [] settings }) ∧
      (∀ a, clientArguments args = .done a → a.Fits) ∧
      (clientArguments args = .fault ↔
        ∃ settings p rest, args = settingWords settings ++ settingWords [p] ++ rest ∧
          (∀ q ∈ settings, Checks clientOptions .taken q) ∧ Checks clientOptions .fault p) := by
  have hdone : ∀ a, clientArguments args = .done a ↔
      ∃ b, parseClientArguments args = .done b ∧ a = b.withDefaults := by
    intro a
    unfold clientArguments
    cases parseClientArguments args <;> simp [eq_comm]
  have hfault : clientArguments args = .fault ↔ parseClientArguments args = .fault := by
    unfold clientArguments
    cases parseClientArguments args <;> simp
  refine ⟨fun a => ?_, fun a ha => ?_, hfault.trans separate_clientOptions.fault_iff⟩
  rotate_left
  · obtain ⟨b, hb, rfl⟩ := (hdone a).mp ha
    exact (clientArguments_fits hb).withDefaults
  rw [hdone]
  simp only [parseClientArguments, separate_clientOptions.done_iff, foldl_clientOptions]
  constructor
  · rintro ⟨b, ⟨settings, hargs, hsettings, rfl⟩, rfl⟩
    exact ⟨settings, hargs, hsettings, rfl⟩
  · rintro ⟨settings, hargs, hsettings, rfl⟩
    exact ⟨_, ⟨settings, hargs, hsettings, rfl⟩, rfl⟩

/-! ## The heartbeat client -/

/-- What `parse_arguments` of the heartbeat client sets. -/
@[ext] structure HeartbeatArguments where
  localIp : List UInt8
  localPort : List UInt8
  externalIp : List UInt8
  externalPort : List UInt8
  deriving DecidableEq

/-- What `main` of the heartbeat client sets before. -/
def HeartbeatArguments.default : HeartbeatArguments where
  localIp := bytes "127.0.0.1"
  localPort := bytes "4000"
  externalIp := bytes "127.0.0.1"
  externalPort := bytes "3491"

/-- The options of the heartbeat client. -/
def heartbeatOptions : List (CommandOption (List UInt8) HeartbeatArguments) :=
  [copyOption "--local-ip" inetAddrStrLen fun v a => { a with localIp := v },
    copyOption "--local-port" portStrLen fun v a => { a with localPort := v },
    copyOption "--external-ip" inetAddrStrLen fun v a => { a with externalIp := v },
    copyOption "--external-port" portStrLen fun v a => { a with externalPort := v }]

/-- `parse_arguments` of the heartbeat client, on the words behind the name of the program. -/
def parseHeartbeatArguments (args : List (List UInt8)) : Parsed HeartbeatArguments :=
  parseOptions showOptions heartbeatOptions .default args

theorem foldl_heartbeatOptions (settings : List (List UInt8 × List UInt8)) :
    settings.foldl (assign heartbeatOptions) .default =
      { localIp := lastSetting some (bytes "--local-ip") (bytes "127.0.0.1") settings
        localPort := lastSetting some (bytes "--local-port") (bytes "4000") settings
        externalIp := lastSetting some (bytes "--external-ip") (bytes "127.0.0.1") settings
        externalPort := lastSetting some (bytes "--external-port") (bytes "3491") settings } := by
  have hlocalIp : IsField heartbeatOptions HeartbeatArguments.localIp (bytes "--local-ip")
      some := ⟨by decide, fun _ _ => rfl, fun _ _ => rfl, fun _ _ => rfl, fun _ _ => rfl⟩
  have hlocalPort : IsField heartbeatOptions HeartbeatArguments.localPort
      (bytes "--local-port") some :=
    ⟨by decide, fun _ _ => rfl, fun _ _ => rfl, fun _ _ => rfl, fun _ _ => rfl⟩
  have hexternalIp : IsField heartbeatOptions HeartbeatArguments.externalIp
      (bytes "--external-ip") some :=
    ⟨by decide, fun _ _ => rfl, fun _ _ => rfl, fun _ _ => rfl, fun _ _ => rfl⟩
  have hexternalPort : IsField heartbeatOptions HeartbeatArguments.externalPort
      (bytes "--external-port") some :=
    ⟨by decide, fun _ _ => rfl, fun _ _ => rfl, fun _ _ => rfl, fun _ _ => rfl⟩
  exact HeartbeatArguments.ext (hlocalIp.get_foldl settings _)
    (hlocalPort.get_foldl settings _) (hexternalIp.get_foldl settings _)
    (hexternalPort.get_foldl settings _)

theorem separate_heartbeatOptions : Separate showOptions heartbeatOptions :=
  ⟨by decide, by decide⟩

/-- The heartbeat client starts exactly on lines of settings that it takes, with the last value
of each option; and it writes past an array exactly if a value that does not fit comes behind
such settings. -/
theorem heartbeat_arguments (args : List (List UInt8)) :
    (∀ a, parseHeartbeatArguments args = .done a ↔
      ∃ settings, args = settingWords settings ∧
        (∀ p ∈ settings, Checks heartbeatOptions .taken p) ∧
        a =
          { localIp := lastSetting some (bytes "--local-ip") (bytes "127.0.0.1") settings
            localPort := lastSetting some (bytes "--local-port") (bytes "4000") settings
            externalIp := lastSetting some (bytes "--external-ip") (bytes "127.0.0.1") settings
            externalPort :=
              lastSetting some (bytes "--external-port") (bytes "3491") settings }) ∧
      (parseHeartbeatArguments args = .fault ↔
        ∃ settings p rest, args = settingWords settings ++ settingWords [p] ++ rest ∧
          (∀ q ∈ settings, Checks heartbeatOptions .taken q) ∧
          Checks heartbeatOptions .fault p) := by
  refine ⟨fun a => ?_, separate_heartbeatOptions.fault_iff⟩
  simp only [parseHeartbeatArguments, separate_heartbeatOptions.done_iff, foldl_heartbeatOptions]

/-- The word behind an option is its value, even where it looks like another option. -/
example : parseHeartbeatArguments [bytes "--local-ip", bytes "--help"] =
    .done { HeartbeatArguments.default with localIp := bytes "--help" } := by decide

end SelectServer
