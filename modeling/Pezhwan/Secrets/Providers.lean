import Mathlib.Data.List.DropRight
import Pezhwan.Paths.Url
import Pezhwan.Json

namespace Pezhwan.Secrets

inductive SecretError where
  | error (message : String)
  | io (message : String) (code : Option String)
  | notFound (secretName : String)
  | typeError
  deriving DecidableEq, Repr

def isAlphanumeric (c : Char) : Bool := ('A' ≤ c && c ≤ 'Z') || ('a' ≤ c && c ≤ 'z') || ('0' ≤ c && c ≤ '9')

def required (name : String) : Except SecretError (Option String) → Except SecretError String
  | .ok (some value) => .ok value
  | .ok none => .error (.notFound name)
  | .error e => .error e

structure FileSecretProvider where
  directory : String
  readFile : String → Except SecretError String

namespace FileSecretProvider
variable (provider : FileSecretProvider)

-- /^[A-Za-z0-9_.-]+$/
def accepts (name : String) : Bool :=
  name != "" && name.toList.all (fun c => isAlphanumeric c || c = '_' || c = '.' || c = '-') && !(name = "." || name = "..")

def filePath (name : String) : Except SecretError String :=
  if !accepts name then .error (.error ("Invalid secret name \"" ++ name ++ "\""))
  else .ok (provider.directory ++ "/" ++ name)

def getOptionalSecret (name : String) : Except SecretError (Option String) :=
  match (provider.filePath name).bind provider.readFile with
  | .ok content =>
    let trimmed := String.ofList (trim content.toList)
    .ok (if trimmed = "" then none else some trimmed)
  | .error (.io message code) => if code = some "ENOENT" then .ok none else .error (.io message code)
  | .error e => .error e

def getSecret (name : String) : Except SecretError String := required name (provider.getOptionalSecret name)

end FileSecretProvider

structure VaultSecretProviderOptions where
  baseUrl : String
  token : Option String := none
  roleId : Option String := none
  secretId : Option String := none
  mountPath : Option String := none
  kvVersion : Option ℕ := none

inductive Method where
  | GET | POST
  deriving DecidableEq, Repr

structure Request where
  method : Method
  url : String
  headers : List (String × String)
  body : Option Json := none

-- A body that is no JSON is none.
structure Response where
  ok : Bool
  status : ℕ
  body : Option Json

-- A request that gets no answer is rejected.
abbrev Fetch := Request → Except SecretError Response

structure VaultSecretProvider where
  baseUrl : String
  mountPath : String
  kvVersion : ℕ
  roleId : Option String
  secretId : Option String
  cachedToken : Option String

-- The slashes at the end, and those at the beginning too.
def trimEnd (text : String) : String := String.ofList (text.toList.rdropWhile (· = '/'))
def trimBoth (text : String) : String := String.ofList ((text.toList.dropWhile (· = '/')).rdropWhile (· = '/'))

def truthy (text : Option String) : Option String := text.filter (· != "")

def percent (byte : UInt8) : List Char := ['%',(hexDigit (byte.toNat / 16)).toUpper,(hexDigit (byte.toNat % 16)).toUpper]

def isUnreserved (c : Char) : Bool := isAlphanumeric c || c ∈ "-_.!~*'()".toList

def encodeURIComponent (text : List Char) : List Char :=
  text.flatMap fun c => if isUnreserved c then [c] else (String.singleton c).toUTF8.toList.flatMap percent

-- What Object.entries lists, and a field read off a value.
def entries (json : Json) : List (String × Json) := Json.spread (some json)

def field (name : String) (json : Json) : Option Json := (entries json).lookup name

def textAt (name : String) (json : Json) : Option String :=
  match field name json with
  | some (.string value) => some value
  | _ => none

-- `value ?? {}`
def orEmpty : Option Json → Json
  | none | some .null => .object []
  | some value => value

namespace VaultSecretProvider

def new (options : VaultSecretProviderOptions) : Except SecretError VaultSecretProvider :=
  if options.baseUrl = "" then .error (.error "VaultSecretProvider requires a baseUrl")
  else .ok ⟨trimEnd options.baseUrl,trimBoth (options.mountPath.getD "secret"),options.kvVersion.getD 2,options.roleId,options.secretId,options.token⟩

variable (provider : VaultSecretProvider)

def loginRequest (roleId secretId : String) : Request :=
  ⟨.POST,provider.baseUrl ++ "/v1/auth/approle/login",[("Content-Type","application/json")],
    some (.object [("role_id",.string roleId),("secret_id",.string secretId)])⟩

def loginToken (response : Response) : Except SecretError String :=
  if !response.ok then .error (.error ("Vault AppRole login failed (" ++ toString response.status ++ ")"))
  else
    match response.body with
    | none | some .null => .error .typeError
    | some body =>
      match truthy ((field "auth" body).bind (textAt "client_token")) with
      | none => .error (.error "Vault AppRole login returned no client token")
      | some token => .ok token

-- The token, the provider that remembers it, and the requests sent for it.
def ensureToken (fetch : Fetch) : Except SecretError String × VaultSecretProvider × List Request :=
  match truthy provider.cachedToken,truthy provider.roleId,truthy provider.secretId with
  | some token,_,_ => (.ok token,provider,[])
  | none,some roleId,some secretId =>
    let request := provider.loginRequest roleId secretId
    match (fetch request).bind loginToken with
    | .error e => (.error e,provider,[request])
    | .ok token => (.ok token,{provider with cachedToken := some token},[request])
  | none,_,_ => (.error (.error "VaultSecretProvider requires a token or AppRole credentials"),provider,[])

-- /^[A-Za-z0-9._/-]+$/
def accepts (name : String) : Bool :=
  name != "" && name.toList.all (fun c => isAlphanumeric c || c = '.' || c = '_' || c = '/' || c = '-') &&
    name.toList.head? != some '/' && name.toList.getLast? != some '/'

def encoded (name : String) : String := String.ofList (['/'].intercalate ((name.toList.splitOn '/').map encodeURIComponent))

def dataPath (name : String) : String :=
  if provider.kvVersion = 2 then provider.mountPath ++ "/data/" ++ encoded name else provider.mountPath ++ "/" ++ encoded name

def secretUrl (name : String) : String := provider.baseUrl ++ "/v1/" ++ provider.dataPath name

def resolveValue (map : Json) (lastSegment name : String) : Except SecretError (Option String) :=
  match textAt lastSegment map,textAt "value" map,textAt "secret" map with
  | some value,_,_ => .ok (some value)
  | none,some value,_ => .ok (some value)
  | none,none,some value => .ok (some value)
  | none,none,none =>
    match entries map with
    | [] => .ok none
    | [(_,.string value)] => .ok (some value)
    | _ => .error (.error ("Vault secret \"" ++ name ++ "\" has an unexpected shape; expose a string field (e.g. \"value\")"))

def secretRequest (token name : String) : Request := ⟨.GET,provider.secretUrl name,[("X-Vault-Token",token)],none⟩

def secretValue (name : String) (response : Response) : Except SecretError (Option String) :=
  if response.status = 404 then .ok none
  else if !response.ok then .error (.error ("Vault read failed (" ++ toString response.status ++ ")"))
  else
    match response.body with
    | none | some .null => .error .typeError
    | some body =>
      let data := field "data" body
      let map := if provider.kvVersion = 2 then
          match data with
          | none | some .null => .object []
          | some inner => orEmpty (field "data" inner)
        else orEmpty data
      resolveValue map (String.ofList (((name.toList.splitOn '/').getLast?).getD [])) name

def getOptionalSecret (fetch : Fetch) (name : String) : Except SecretError (Option String) × VaultSecretProvider × List Request :=
  if !accepts name then (.error (.error ("Invalid Vault secret name \"" ++ name ++ "\"")),provider,[])
  else
    match provider.ensureToken fetch with
    | (.error e,after,sent) => (.error e,after,sent)
    | (.ok token,after,sent) =>
      let request := provider.secretRequest token name
      ((fetch request).bind (provider.secretValue name),after,sent ++ [request])

def getSecret (fetch : Fetch) (name : String) : Except SecretError String × VaultSecretProvider × List Request :=
  let (answer,after) := provider.getOptionalSecret fetch name
  (required name answer,after)

end VaultSecretProvider
end Pezhwan.Secrets
