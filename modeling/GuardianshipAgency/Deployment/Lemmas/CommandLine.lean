import GuardianshipAgency.Cli.Options
import GuardianshipAgency.Deployment.Model
import GuardianshipAgency.Js.Lemmas.Stringify

/-!
# The command line of an agent

What the options say and how they are read.
-/

namespace GuardianshipAgency.Deployment

open Js

/-- The number of values of each option. -/
def arity : Option String → Option ℕ
  | some "--inbound-transport" => some 3
  | some "--admin" => some 2
  | some "--wallet-local-did" | some "--auto-provision" => some 0
  | some "--outbound-transport" | some "--ledger-pool-name" | some "--genesis-transactions" | some "--wallet-type"
  | some "--wallet-storage-type" | some "--endpoint" | some "--wallet-name" | some "--wallet-key"
  | some "--wallet-storage-config" | some "--wallet-storage-creds" | some "--admin-api-key" | some "--label"
  | some "--webhook-url" | some "--log-level" | some "--admin-client-max-request-size" | some "--tails-server-base-url"
  | some "--seed" => some 1
  | _ => none

def tailsOption (url : Option String) (useTailsServer : Bool) : List (Option String × List (Option String)) :=
  if useTailsServer then [(some "--tails-server-base-url", [url])] else []

def seedOption (seed : Option String) : List (Option String × List (Option String)) :=
  if seed.getD "" = "" then [] else [(some "--seed", [seed])]

/-- The options with which an agent is started. -/
def options (settings : Settings) (config : AgentConfig) : List (Option String × List (Option String)) :=
  [(some "--inbound-transport", [some "http", some "0.0.0.0", some (numberText config.httpPort)]),
    (some "--outbound-transport", [some config.outboundTransport]),
    (some "--ledger-pool-name", [config.ledgerPoolName]),
    (some "--genesis-transactions", [some config.genesisTransactions]),
    (some "--wallet-type", [some config.walletType]),
    (some "--wallet-storage-type", [some config.walletStorageType]),
    (some "--endpoint", [some config.endpoint]),
    (some "--wallet-name", [some config.walletName]),
    (some "--wallet-key", [some config.walletKey]),
    (some "--wallet-storage-config", [some config.walletStorageConfig]),
    (some "--wallet-storage-creds", [some config.walletStorageCreds]),
    (some "--admin", [some "0.0.0.0", some (numberText config.adminPort)]),
    (some "--admin-api-key", [some config.adminApiKey]),
    (some "--label", [config.label]),
    (some "--webhook-url", [some config.webhookUrl]),
    (some "--log-level", [config.logLevel]),
    (some "--wallet-local-did", []),
    (some "--auto-provision", []),
    (some "--admin-client-max-request-size", [some config.maxRequestSize])] ++
  tailsOption settings.tailsUrl config.useTailsServer ++ seedOption config.seed

theorem arity_options (settings : Settings) (config : AgentConfig) :
    ∀ o ∈ options settings config, arity o.1 = some o.2.length := by
  intro o ho
  simp only [options, List.mem_append] at ho
  rcases ho with (ho | ho) | ho
  · simp only [List.mem_cons, List.not_mem_nil, or_false] at ho
    rcases ho with rfl | rfl | rfl | rfl | rfl | rfl | rfl | rfl | rfl | rfl | rfl | rfl | rfl | rfl | rfl | rfl | rfl |
      rfl | rfl <;> rfl
  · unfold tailsOption at ho
    split at ho
    · rw [List.mem_singleton.mp ho]
      rfl
    · cases ho
  · unfold seedOption at ho
    split at ho
    · cases ho
    · rw [List.mem_singleton.mp ho]
      rfl

theorem inbound_mem_options (settings : Settings) (config : AgentConfig) :
    (some "--inbound-transport", [some "http", some "0.0.0.0", some (numberText config.httpPort)]) ∈
      options settings config := by
  simp [options]

theorem admin_mem_options (settings : Settings) (config : AgentConfig) :
    (some "--admin", [some "0.0.0.0", some (numberText config.adminPort)]) ∈ options settings config := by
  simp [options]

theorem split_append {word : String} (hword : ' ' ∉ word.toList) (text : String) :
    AgentConfig.split (word ++ " " ++ text) = word :: AgentConfig.split text := by
  have hsplit := List.splitOn_append_cons_self_of_not_mem hword text.toList
  simp [AgentConfig.split, hsplit]

theorem split_eq_singleton {word : String} (hword : ' ' ∉ word.toList) : AgentConfig.split word = [word] := by
  have hsplit : word.toList.splitOn ' ' = [word.toList] := by
    rw [List.splitOn_eq_splitOnP]
    exact List.splitOnP_eq_singleton fun c hc => by simpa using ne_of_mem_of_not_mem hc hword
  simp [AgentConfig.split, hsplit]

theorem split_admin (port : Option ℚ) :
    AgentConfig.split ("0.0.0.0 " ++ numberText port) = ["0.0.0.0", numberText port] := by
  rw [show "0.0.0.0 " = "0.0.0.0" ++ " " from rfl, split_append (by decide),
    split_eq_singleton (Json.blank_notMem_numberText port)]

theorem split_inboundTransport (port : Option ℚ) :
    AgentConfig.split ("http 0.0.0.0 " ++ numberText port) = ["http", "0.0.0.0", numberText port] := by
  rw [show "http 0.0.0.0 " = "http" ++ " " ++ "0.0.0.0 " from rfl, String.append_assoc, split_append (by decide),
    split_admin]

/-! ## Start arguments -/

theorem getStartArgs_eq (env : Agency.Env) (settings : Settings) (agentDto : AgentCreateDto) :
    (AgentConfig.new env settings agentDto).getStartArgs settings =
      some "start" :: Cli.render (options settings (AgentConfig.new env settings agentDto)) := by
  generalize hconfig : AgentConfig.new env settings agentDto = config
  have hinbound : AgentConfig.split config.inboundTransport = ["http", "0.0.0.0", numberText config.httpPort] := by
    subst hconfig
    exact split_inboundTransport _
  have hadmin : AgentConfig.split config.admin = ["0.0.0.0", numberText config.adminPort] := by
    subst hconfig
    exact split_admin _
  simp only [AgentConfig.getStartArgs, hinbound, hadmin, options, tailsOption, seedOption]
  split_ifs <;> rfl

/-- An agent that reads its command line finds each option with its values. -/
theorem read_getStartArgs (env : Agency.Env) (settings : Settings) (agentDto : AgentCreateDto) :
    Cli.read arity ((AgentConfig.new env settings agentDto).getStartArgs settings).tail =
      some (options settings (AgentConfig.new env settings agentDto)) := by
  rw [getStartArgs_eq, List.tail_cons]
  exact Cli.read_render (arity_options _ _)

/-! ## Different agents -/

variable {env : Agency.Env} {settings : Settings}

/-- The configurations agree in what a request says about its agent, but for the lifetime. An empty seed is none. -/
structure AgentConfig.SameAgent (config config' : AgentConfig) : Prop where
  agentId : config.agentId = config'.agentId
  adminApiKey : config.adminApiKey = config'.adminApiKey
  adminPort : config.adminPort = config'.adminPort
  webhookUrl : config.webhookUrl = config'.webhookUrl
  walletName : config.walletName = config'.walletName
  walletKey : config.walletKey = config'.walletKey
  label : config.label = config'.label
  useTailsServer : config.useTailsServer = config'.useTailsServer
  seed : config.seed.getD "" = config'.seed.getD ""

theorem decimal_adminPort (env : Agency.Env) {agentDto : Agency.AgentCreateDto}
    (h : Json.Decimal agentDto.adminApiPort) : Json.Decimal (Agency.AgentConfig.new env agentDto).adminPort := by
  unfold Agency.AgentConfig.new
  dsimp only
  split
  · exact Json.decimal_parseInt _
  · next p hp =>
      split
      · exact Json.decimal_parseInt _
      · rw [← hp]
        exact h

theorem seedOption_eq_iff {seed seed' : Option String} :
    seedOption seed = seedOption seed' ↔ seed.getD "" = seed'.getD "" := by
  unfold seedOption
  split_ifs with h h' h'
  · simp [h, h']
  · simp [h, Ne.symm h']
  · simp [h, h']
  · cases seed with
    | none => exact absurd rfl h
    | some seed =>
        cases seed' with
        | none => exact absurd rfl h'
        | some seed' => simp

theorem optional_eq_iff {url seed seed' : Option String} {tails tails' : Bool} :
    tailsOption url tails ++ seedOption seed = tailsOption url tails' ++ seedOption seed' ↔
      tails = tails' ∧ seed.getD "" = seed'.getD "" := by
  have hne : ∀ seed o, (some "--tails-server-base-url", [url]) :: o ≠ seedOption seed := by
    intro seed o
    unfold seedOption
    split_ifs <;> simp
  cases tails <;> cases tails'
  · simp [tailsOption, seedOption_eq_iff]
  · simp [tailsOption, (hne _ _).symm]
  · simp [tailsOption, hne]
  · simp [tailsOption, seedOption_eq_iff]

theorem options_eq_iff {agentDto agentDto' : AgentCreateDto} (hport : Json.Decimal agentDto.adminApiPort)
    (hport' : Json.Decimal agentDto'.adminApiPort) :
    options settings (AgentConfig.new env settings agentDto) =
        options settings (AgentConfig.new env settings agentDto') ↔
      (AgentConfig.new env settings agentDto).SameAgent (AgentConfig.new env settings agentDto') := by
  simp only [options, List.cons_append, List.nil_append, List.cons.injEq, Prod.mk.injEq, Option.some.injEq, true_and,
    and_true, optional_eq_iff]
  constructor
  · rintro ⟨-, -, -, -, -, -, hendpoint, hname, hkey, -, -, hadmin, hapiKey, hlabel, hwebhook, -, -, htails, hseed⟩
    refine ⟨?_, hapiKey, ?_, hwebhook, hname, hkey, hlabel, htails, hseed⟩
    · exact (String.append_right_inj _).mp hendpoint
    · exact Json.numberText_inj (decimal_adminPort env hport) (decimal_adminPort env hport') hadmin
  · intro h
    have hendpoint : (AgentConfig.new env settings agentDto).endpoint =
        (AgentConfig.new env settings agentDto').endpoint := congrArg (env.publicUrl ++ "/v1/router/" ++ ·) h.agentId
    have hadmin := congrArg numberText h.adminPort
    exact ⟨rfl, rfl, rfl, rfl, rfl, rfl, hendpoint, h.walletName, h.walletKey, rfl, rfl, hadmin, h.adminApiKey,
      h.label, h.webhookUrl, rfl, rfl, h.useTailsServer, h.seed⟩

end GuardianshipAgency.Deployment
