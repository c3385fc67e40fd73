import GuardianshipAgency.Agency.Services
import GuardianshipAgency.Js.Uri
import GuardianshipAgency.Text.Path
import GuardianshipAgency.Text.Pattern

/-!
# Routes

`AgentRouterService`, the proxy of `AgentRouterModule`, the route of `AgentControllerController` and what the validators
of the DTOs say about names.
-/

namespace GuardianshipAgency.Routing

open Js Agency Text

/-! ## `AgentRouterService` -/

namespace AgentRouterService

def getUrl (env : Env) (agentId : String) : String := "http://" ++ agentId ++ ":" ++ env.agentHttpPort

/-- `parts[3]` -/
def agentId? (path : List Char) : Option (List Char) := (segments path)[3]?

/-- An id that is `undefined` stands in the URL as that. -/
def getRouter (env : Env) (path : List Char) : String :=
  getUrl env ((agentId? path).elim "undefined" String.ofList)

end AgentRouterService

/-! ## `AgentRouterModule` -/

namespace AgentRouterModule

def context : List Char := "/v1/router".toList

/-- `^/v1/router/[^/]+/?`, which is replaced by the empty string. -/
def pathRewrite : Pattern Char :=
  .seq (.literal "/v1/router/".toList) (.seq (.oneOrMore (· != '/')) (.optional (.one (· == '/'))))

/-- The URL of a request: `req.path` and the query string, if there is one, with its question mark. -/
structure RequestUrl where
  path : List Char
  query : List Char
  path_plain : '?' ∉ path
  query_start : query = [] ∨ ∃ q, query = '?' :: q

def RequestUrl.url (u : RequestUrl) : List Char := u.path ++ u.query

/-- The URL that is forwarded to the agent. -/
def forwarded (u : RequestUrl) : List Char := pathRewrite.strip u.url

end AgentRouterModule

/-! ## DTOs -/

def isLowerAlpha (c : Char) : Bool := 'a' ≤ c && c ≤ 'z'

def isLowerAlphanumeric (c : Char) : Bool := isLowerAlpha c || ('0' ≤ c && c ≤ '9')

/-- `[a-z]([-a-z0-9]*[a-z0-9])?` -/
def agentIdPattern : Pattern Char :=
  .seq (.one isLowerAlpha)
    (.optional (.seq (.many fun c => c == '-' || isLowerAlphanumeric c) (.one isLowerAlphanumeric)))

/-- `Matches` asks for a match somewhere. The other fields, and all of `WalletCreateDto`, may be any strings. -/
def accepts (agentDto : AgentCreateDto) : Bool := agentIdPattern.occurs agentDto.agentId.toList

/-! ## `AgentControllerController` -/

namespace AgentControllerController

structure RouteParams where
  agentId : String
  route : String
  subroute : String
deriving DecidableEq

def param? (segment : List Char) : Option String :=
  if segment = [] then none else (decodeURIComponent segment).map String.ofList

def params? (agentId route subroute : List Char) : Option RouteParams := do
  let agentId ← param? agentId
  let route ← param? route
  let subroute ← param? subroute
  return { agentId, route, subroute }

/-- `v1/controller/:agentId/:route/:subroute`. A slash may follow. -/
def route? (path : List Char) : Option RouteParams :=
  match segments path with
  | [[], v1, controller, agentId, route, subroute]
  | [[], v1, controller, agentId, route, subroute, []] =>
      if v1 = "v1".toList ∧ controller = "controller".toList then params? agentId route subroute else none
  | _ => none

def postController (env : Env) (params : RouteParams) (body : Json) : Async.Prog JsError Op.Val (Option Json) :=
  AgentControllerService.handleRequest env params.agentId params.route params.subroute body

end AgentControllerController

/-- The URL for webhooks that `callCreateWallet` gives to the multitenant server. -/
def walletWebhookUrl (env : Env) (body : WalletCreateDto) : String :=
  orElse body.controllerUrl (env.internalUrl ++ "/v1/controller/" ++ body.walletName)

theorem callCreateWallet_webhookUrl (env : Env) (body : WalletCreateDto) :
    ∃ data : WalletData, data.walletWebhookUrl = walletWebhookUrl env body ∧
      MultitenantService.callCreateWallet env body =
        Async.Prog.call (Op.createWallet (MultitenantService.target env) data) :=
  ⟨_, rfl, rfl⟩

/-- The path of a request to a URL under `base`, which is where the agency is reached. -/
def requestPath (base : String) (url : List Char) : List Char := pathname (url.drop base.toList.length)

end GuardianshipAgency.Routing
