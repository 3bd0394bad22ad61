/-
# MarketPilot.Services.Auth — who may call which route

A configuration is read from the environment once, before the server starts; it keeps digests of the tokens
and no token.  Every request passes `authorize`, which lets it through, asks for credentials or refuses it.

`str.lower`, `str.upper` and SHA-256 are parameters.  Which route a header opens depends on SHA-256 only
through collisions, and the results that need their absence say so for the tokens at hand.
-/
import Mathlib.Data.List.Nodup
import MarketPilot.Foundation.Effect
import MarketPilot.Python.Text

namespace MarketPilot.Auth

open MarketPilot.Python MarketPilot.Foundation

/-! ## The configuration -/

/-- Where the process runs; every mode but the local one asks for tokens. -/
inductive AuthMode where
  | localMode
  | shared
  | production
  deriving DecidableEq, Repr

/-- Whom a token stands for. -/
inductive AuthRole where
  | readOnly
  | operator
  | reviewer
  deriving DecidableEq, Repr

/-- `AuthConfigurationError`. -/
structure AuthConfigurationError where
  message : String
  deriving DecidableEq

/-- The order of `_TOKEN_ENV_BY_ROLE`. -/
def AuthRole.all : List AuthRole := [.readOnly, .operator, .reviewer]

/-- `_TOKEN_ENV_BY_ROLE[role]`. -/
def AuthRole.tokenEnv : AuthRole → String
  | .readOnly => "MARKETPILOT_READ_ONLY_TOKEN"
  | .operator => "MARKETPILOT_OPERATOR_TOKEN"
  | .reviewer => "MARKETPILOT_REVIEWER_TOKEN"

/-- `_MIN_TOKEN_LENGTH`. -/
def minTokenLength : Nat := 32

/-- The configuration that is read at startup. -/
structure AuthConfig (Digest : Type) where
  mode : AuthMode
  codeVersion : String
  tokenDigests : List (AuthRole × Digest)

/-- `config.protected`. -/
def AuthConfig.isProtected {Digest : Type} (config : AuthConfig Digest) : Bool :=
  config.mode ≠ .localMode

/-- `config.docs_enabled`. -/
def AuthConfig.docsEnabled {Digest : Type} (config : AuthConfig Digest) : Bool :=
  config.mode = .localMode

/-- `os.environ`. -/
abbrev Env := String → Option String

section FromEnv

variable {Digest : Type} (lower : String → String) (sha256 : String → Digest) (env : Env)

/-- `env.get("MARKETPILOT_ENV", "development").strip().lower()`. -/
def deployment : String := lower (strip ((env "MARKETPILOT_ENV").getD "development"))

/-- `deployment in {"development", "test", "local"}`. -/
def IsLocalDeployment (deployment : String) : Prop :=
  deployment ∈ ["development", "test", "local"]

instance (name : String) : Decidable (IsLocalDeployment name) :=
  inferInstanceAs (Decidable (_ ∈ _))

/-- The mode that is asked for, or the one that fits the deployment. -/
def modeOf : Except AuthConfigurationError AuthMode :=
  let configured := lower (strip ((env "MARKETPILOT_AUTH_MODE").getD ""))
  if configured ≠ "" then
    if configured = "local" then pure .localMode
    else if configured = "shared" then pure .shared
    else if configured = "production" then pure .production
    else throw ⟨"MARKETPILOT_AUTH_MODE must be local, shared, or production"⟩
  else if IsLocalDeployment (deployment lower env) then pure .localMode
  else if deployment lower env = "production" then pure .production
  else pure .shared

/-- `env.get(variable, "")`. -/
def tokenOf (role : AuthRole) : String := (env role.tokenEnv).getD ""

/-- A token of a protected deployment. -/
def IsToken (token : String) : Prop := minTokenLength ≤ token.length ∧ token = strip token

instance (token : String) : Decidable (IsToken token) := inferInstanceAs (Decidable (_ ∧ _))

/-- One iteration of the loop over the roles. -/
def checkToken (role : AuthRole) : Except AuthConfigurationError (AuthRole × String) :=
  if IsToken (tokenOf env role) then pure (role, tokenOf env role)
  else throw ⟨role.tokenEnv ++ " must be a non-whitespace token of at least " ++
    toString minTokenLength ++ " characters"⟩

/-- The code version names a pinned artifact. -/
def IsPinned (codeVersion : String) : Prop :=
  codeVersion ≠ "" ∧ codeVersion ≠ "development-unpinned" ∧ codeVersion.length ≤ 120

instance (codeVersion : String) : Decidable (IsPinned codeVersion) :=
  inferInstanceAs (Decidable (_ ∧ _))

/-- `AuthConfig.from_env(env)`. -/
def fromEnv : Except AuthConfigurationError (AuthConfig Digest) := do
  let mode ← modeOf lower env
  if mode = .localMode then
    if ¬ IsLocalDeployment (deployment lower env) then
      throw ⟨"local authentication bypass is forbidden outside a local deployment"⟩
    else
      pure {
        mode
        codeVersion := strip ((env "MARKETPILOT_CODE_VERSION").getD "development-unpinned")
        tokenDigests := [] }
  else
    let codeVersion := strip ((env "MARKETPILOT_CODE_VERSION").getD "")
    if ¬ IsPinned codeVersion then
      throw ⟨"MARKETPILOT_CODE_VERSION must identify the pinned deployed artifact"⟩
    else
      let tokens ← AuthRole.all.mapM (checkToken env)
      if ¬ (tokens.map Prod.snd).Nodup then
        throw ⟨"authentication tokens must be unique per role"⟩
      else
        pure {
          mode
          codeVersion
          tokenDigests := tokens.map fun p => (p.1, sha256 p.2) }

end FromEnv

/-! ## Authentication -/

section Authenticate

variable {Digest : Type} [DecidableEq Digest] (lower : String → String) (sha256 : String → Digest)

/-- `authorization.partition(" ")`; no separator leaves no token. -/
def partitionSpace (authorization : String) : String × Option String :=
  let scheme := authorization.toList.takeWhile fun c => c ≠ ' '
  (String.ofList scheme, match authorization.toList.dropWhile fun c => c ≠ ' ' with
    | [] => none
    | _ :: token => some (String.ofList token))

/-- `_bearer_token(authorization)`. -/
def bearerToken (authorization : Option String) : Option String :=
  match authorization.map partitionSpace with
  | some (scheme, some token) =>
    if lower scheme ≠ "bearer" ∨ token = "" then none
    else if token ≠ strip token ∨ token.toList.any isSpace then none
    else some token
  | _ => none

/-- `authenticate(authorization)`: every role is compared, and the last one that matches counts. -/
def AuthConfig.authenticate (config : AuthConfig Digest) (authorization : Option String) :
    Option AuthRole :=
  match bearerToken lower authorization with
  | none => none
  | some token => config.tokenDigests.foldl
      (fun matched p => if sha256 token = p.2 then some p.1 else matched) none

end Authenticate

/-! ## Authorisation -/

/-- `role_allows(actual, required)`. -/
def roleAllows (actual required : AuthRole) : Bool :=
  if required = .readOnly then true else actual = required

/-- `required_role(method, path)`. -/
def requiredRole (upper : String → String) (method path : String) : Option AuthRole :=
  if path = "/health" ∨ ¬ "/v1".toList.isPrefixOf path.toList then none
  else if upper method ∈ ["GET", "HEAD", "OPTIONS"] then some .readOnly
  else if path = "/v1/governance" ∨ "/v1/governance/".toList.isPrefixOf path.toList then some .reviewer
  else some .operator

/-- A route that changes something is open to its own role alone. -/
theorem eq_of_roleAllows {actual required : AuthRole} (hwrites : required ≠ .readOnly)
    (h : roleAllows actual required = true) : actual = required := by
  unfold roleAllows at h
  rw [if_neg hwrites] at h
  exact of_decide_eq_true h

/-- What the middleware does with a request. -/
inductive Ingress where
  /-- `call_next(request)`. -/
  | forwarded
  /-- 401, `WWW-Authenticate: Bearer`. -/
  | unauthenticated
  /-- 403. -/
  | forbidden
  deriving DecidableEq, Repr

/-- `authorize(request, call_next)`. -/
def authorize {Digest : Type} [DecidableEq Digest] (lower upper : String → String)
    (sha256 : String → Digest) (config : AuthConfig Digest) (method path : String)
    (authorization : Option String) : Ingress :=
  match requiredRole upper method path with
  | none => .forwarded
  | some required =>
    if ¬ config.isProtected then .forwarded
    else match config.authenticate lower sha256 authorization with
      | none => .unauthenticated
      | some role => if roleAllows role required then .forwarded else .forbidden

/-! ## What the environment admits -/

section Admission

variable {Digest : Type} {lower : String → String} {sha256 : String → Digest} {env : Env}

/-- The credentials of a protected deployment: the tokens are tokens and no two roles share one. -/
structure Credentials (env : Env) : Prop where
  tokens : ∀ role, IsToken (tokenOf env role)
  distinct : ∀ role other, tokenOf env role = tokenOf env other → role = other

theorem mem_all (role : AuthRole) : role ∈ AuthRole.all := by cases role <;> decide

theorem mapM_checkToken_ok_iff {tokens : List (AuthRole × String)} :
    AuthRole.all.mapM (checkToken env) = .ok tokens ↔
      (∀ role, IsToken (tokenOf env role)) ∧
        tokens = AuthRole.all.map fun role => (role, tokenOf env role) := by
  have hcheck : ∀ role, IsToken (tokenOf env role) → checkToken env role = .ok (role, tokenOf env role) := by
    intro role hrole
    rw [checkToken, if_pos hrole]
    rfl
  constructor
  · intro h
    have htokens : ∀ role, IsToken (tokenOf env role) := by
      intro role
      obtain ⟨p, _, hp⟩ := exists_mem_of_mapM h role (mem_all role)
      by_contra hno
      rw [checkToken, if_neg hno] at hp
      cases hp
    rw [mapM_eq_map fun role _ => hcheck role (htokens role)] at h
    exact ⟨htokens, (Except.ok.inj h).symm⟩
  · rintro ⟨htokens, rfl⟩
    exact mapM_eq_map fun role _ => hcheck role (htokens role)

/-- Tokens of all roles that do not repeat belong to one role each. -/
theorem nodup_tokens_iff : ((AuthRole.all.map fun role => (role, tokenOf env role)).map Prod.snd).Nodup ↔
    ∀ role other, tokenOf env role = tokenOf env other → role = other := by
  rw [List.map_map]
  constructor
  · intro h role other heq
    exact List.inj_on_of_nodup_map h (mem_all role) (mem_all other) heq
  · intro h
    exact List.Nodup.map (fun role other => h role other) (by decide)

/-- The configuration that a deployment in mode `mode` gets. -/
inductive Configures (lower : String → String) (sha256 : String → Digest) (env : Env) :
    AuthConfig Digest → Prop
  | localMode : modeOf lower env = .ok .localMode → IsLocalDeployment (deployment lower env) →
      Configures lower sha256 env
        ⟨.localMode, strip ((env "MARKETPILOT_CODE_VERSION").getD "development-unpinned"), []⟩
  | guarded (mode : AuthMode) : modeOf lower env = .ok mode → mode ≠ .localMode →
      IsPinned (strip ((env "MARKETPILOT_CODE_VERSION").getD "")) → Credentials env →
      Configures lower sha256 env
        ⟨mode, strip ((env "MARKETPILOT_CODE_VERSION").getD ""),
          AuthRole.all.map fun role => (role, sha256 (tokenOf env role))⟩

/-- **What `from_env` accepts**, and the configuration it makes of it. -/
theorem fromEnv_ok_iff {config : AuthConfig Digest} :
    fromEnv lower sha256 env = .ok config ↔ Configures lower sha256 env config := by
  unfold fromEnv
  constructor
  · intro h
    obtain ⟨mode, hmode, h⟩ := ok_of_bind h
    -- the local mode is accepted in local deployments alone, and asks for no token
    by_cases hlocal : mode = .localMode
    · subst hlocal
      rw [if_pos rfl] at h
      by_cases hdeployment : IsLocalDeployment (deployment lower env)
      · rw [if_neg (not_not.mpr hdeployment)] at h
        obtain rfl := Except.ok.inj h
        exact .localMode hmode hdeployment
      · rw [if_pos hdeployment] at h
        cases h
    · rw [if_neg hlocal] at h
      by_cases hpinned : IsPinned (strip ((env "MARKETPILOT_CODE_VERSION").getD ""))
      · dsimp only at h
        rw [if_neg (not_not.mpr hpinned)] at h
        obtain ⟨tokens, htokens, h⟩ := ok_of_bind h
        obtain ⟨hall, rfl⟩ := mapM_checkToken_ok_iff.mp htokens
        by_cases hnodup : ((AuthRole.all.map fun role => (role, tokenOf env role)).map Prod.snd).Nodup
        · rw [if_neg (not_not.mpr hnodup)] at h
          obtain rfl := Except.ok.inj h
          rw [List.map_map]
          exact .guarded mode hmode hlocal hpinned ⟨hall, nodup_tokens_iff.mp hnodup⟩
        · rw [if_pos hnodup] at h
          cases h
      · dsimp only at h
        rw [if_pos hpinned] at h
        cases h
  · intro h
    cases h with
    | localMode hmode hdeployment =>
      rw [hmode, ok_bind, if_pos rfl, if_neg (not_not.mpr hdeployment)]
      rfl
    | guarded mode hmode hlocal hpinned hcredentials =>
      rw [hmode, ok_bind, if_neg hlocal]
      dsimp only
      rw [if_neg (not_not.mpr hpinned), mapM_checkToken_ok_iff.mpr ⟨hcredentials.tokens, rfl⟩, ok_bind,
        if_neg (not_not.mpr (nodup_tokens_iff.mpr hcredentials.distinct)), List.map_map]
      rfl

theorem Configures.credentials {config : AuthConfig Digest}
    (hconfig : Configures lower sha256 env config)
    (hprotected : config.isProtected = true) : Credentials env := by
  cases hconfig with
  | localMode _ _ => cases hprotected
  | guarded _ _ _ _ hcredentials => exact hcredentials

end Admission

/-! ## Who gets through -/

section Ingress

variable {Digest : Type} [DecidableEq Digest] {lower upper : String → String}
  {sha256 : String → Digest} {env : Env} {config : AuthConfig Digest}

/-- The header presents the token: a scheme that reads `bearer`, one blank and the token, which has no
white space in it. -/
def Presents (lower : String → String) (authorization : Option String) (token : String) : Prop :=
  ∃ scheme : String, ' ' ∉ scheme.toList ∧ lower scheme = "bearer" ∧ token ≠ "" ∧
    (∀ c ∈ token.toList, isSpace c = false) ∧ authorization = some (scheme ++ " " ++ token)

/-- Text without white space is what stripping leaves of it. -/
theorem strip_eq_self {token : String} (h : ∀ c ∈ token.toList, isSpace c = false) : strip token = token := by
  have hfront : token.toList.dropWhile isSpace = token.toList := by
    rw [List.dropWhile_eq_self_iff]
    intro hpos
    rw [h _ (List.getElem_mem hpos)]
    simp
  have hback : token.toList.rdropWhile isSpace = token.toList := by
    rw [List.rdropWhile_eq_self_iff]
    intro hne
    rw [h _ (List.getLast_mem hne)]
    simp
  show String.ofList ((token.toList.dropWhile isSpace).rdropWhile isSpace) = token
  rw [hfront, hback, String.ofList_toList]

/-- Splitting a header at its first blank and putting it together again. -/
theorem partitionSpace_eq_iff {authorization scheme token : String} :
    partitionSpace authorization = (scheme, some token) ↔
      ' ' ∉ scheme.toList ∧ authorization = scheme ++ " " ++ token := by
  unfold partitionSpace
  constructor
  · intro h
    obtain ⟨hscheme, htoken⟩ := Prod.mk.inj h
    have hsplit : authorization.toList.takeWhile (fun c => decide (c ≠ ' ')) ++
        authorization.toList.dropWhile (fun c => decide (c ≠ ' ')) = authorization.toList :=
      List.takeWhile_append_dropWhile
    cases hrest : authorization.toList.dropWhile (fun c => decide (c ≠ ' ')) with
    | nil =>
      rw [hrest] at htoken
      cases htoken
    | cons c cs =>
      have hne : authorization.toList.dropWhile (fun c => decide (c ≠ ' ')) ≠ [] := by
        rw [hrest]
        exact List.cons_ne_nil c cs
      -- what stops the scheme is the blank itself
      have hblank : c = ' ' := by
        have hhead := List.head_dropWhile_not (fun c => decide (c ≠ ' ')) hne
        simpa only [hrest, List.head_cons, decide_eq_false_iff_not, not_not] using hhead
      rw [hrest] at htoken hsplit
      obtain rfl : String.ofList cs = token := Option.some.inj htoken
      subst hscheme hblank
      constructor
      · rw [String.toList_ofList]
        intro hmem
        have hkept := List.mem_takeWhile_imp hmem
        rw [decide_eq_true_iff] at hkept
        exact hkept rfl
      · apply String.toList_injective
        calc authorization.toList
            = authorization.toList.takeWhile (fun c => decide (c ≠ ' ')) ++ ' ' :: cs := hsplit.symm
          _ = _ := by
            simp only [String.toList_append, String.toList_ofList, List.append_assoc]
            rfl
  · rintro ⟨hscheme, rfl⟩
    have htext : (scheme ++ " " ++ token).toList = scheme.toList ++ ' ' :: token.toList := by
      rw [String.toList_append, String.toList_append, List.append_assoc]
      rfl
    have htake : ∀ c ∈ scheme.toList, decide (c ≠ ' ') = true := by
      intro c hc
      rw [decide_eq_true_iff]
      rintro rfl
      exact hscheme hc
    simp only [htext]
    rw [List.takeWhile_append_of_pos htake, List.dropWhile_append_of_pos htake]
    simp

/-- **A token is read exactly off the headers that present it.** -/
theorem bearerToken_eq_some_iff {authorization : Option String} {token : String} :
    bearerToken lower authorization = some token ↔ Presents lower authorization token := by
  constructor
  · intro h
    unfold bearerToken at h
    cases authorization with
    | none => simp at h
    | some header =>
      rw [Option.map_some] at h
      rcases hparts : partitionSpace header with ⟨scheme, rest⟩
      rw [hparts] at h
      cases rest with
      | none => simp at h
      | some found =>
        dsimp only at h
        split at h
        · cases h
        · rename_i hscheme
          split at h
          · cases h
          · rename_i hspace
            obtain rfl := Option.some.inj h
            rw [not_or, not_not] at hscheme
            rw [not_or] at hspace
            obtain ⟨hblank, rfl⟩ := partitionSpace_eq_iff.mp hparts
            refine ⟨scheme, hblank, hscheme.1, hscheme.2, fun c hc => ?_, rfl⟩
            by_contra hc'
            exact hspace.2 (List.any_eq_true.mpr ⟨c, hc, by simpa using hc'⟩)
  · rintro ⟨scheme, hblank, hscheme, hne, hspace, rfl⟩
    have hparts : partitionSpace (scheme ++ " " ++ token) = (scheme, some token) :=
      partitionSpace_eq_iff.mpr ⟨hblank, rfl⟩
    -- a token without white space is its own strip, so neither check refuses it
    have hany : ¬ (token ≠ strip token ∨ token.toList.any isSpace = true) := by
      rw [not_or, not_not, List.any_eq_true]
      refine ⟨(strip_eq_self hspace).symm, ?_⟩
      rintro ⟨c, hc, hcs⟩
      rw [hspace c hc] at hcs
      cases hcs
    unfold bearerToken
    rw [Option.map_some, hparts]
    dsimp only
    rw [if_neg (by rw [hscheme]; simp [hne]), if_neg hany]

/-- The header presents the token of the role. -/
def Bears (lower : String → String) (env : Env) (authorization : Option String) (role : AuthRole) : Prop :=
  Presents lower authorization (tokenOf env role)

/-- A header of an HTTP request: the framework decodes it byte by byte, as latin-1. -/
def IsCarried (authorization : Option String) : Prop :=
  ∀ header ∈ authorization, ∀ c ∈ header.toList, c.toNat < 256

/-- No token the header presents has the digest of a configured token it is not. -/
def NoCollision (lower : String → String) (sha256 : String → Digest) (env : Env)
    (authorization : Option String) : Prop :=
  ∀ token role, Presents lower authorization token → sha256 token = sha256 (tokenOf env role) →
    token = tokenOf env role

/-- A header presents one token. -/
theorem Presents.unique {authorization : Option String} {token other : String}
    (h : Presents lower authorization token) (h' : Presents lower authorization other) : token = other :=
  Option.some.inj ((bearerToken_eq_some_iff.mpr h).symm.trans (bearerToken_eq_some_iff.mpr h'))

/-- The last match of a loop over pairs of which one matches. -/
theorem foldl_match_eq_some_iff {Key : Type} {fits : Key → Prop} [DecidablePred fits]
    (hunique : ∀ a b, fits a → fits b → a = b) (keys : List Key) :
    ∀ (start : Option Key), (∀ a, start = some a → fits a) → ∀ key,
      keys.foldl (fun found a => if fits a then some a else found) start = some key ↔
        fits key ∧ (key ∈ keys ∨ start = some key) := by
  induction keys with
  | nil =>
    intro start hstart key
    simp only [List.foldl_nil, List.not_mem_nil, false_or]
    exact ⟨fun h => ⟨hstart key h, h⟩, And.right⟩
  | cons a keys ih =>
    intro start hstart key
    rw [List.foldl_cons]
    by_cases ha : fits a
    · rw [if_pos ha, ih (some a) (by rintro _ ⟨⟩; exact ha)]
      refine and_congr_right fun hkey => ?_
      obtain rfl := hunique a key ha hkey
      simp
    · rw [if_neg ha, ih start hstart]
      refine and_congr_right fun hkey => ?_
      have hne : key ≠ a := fun heq => ha (heq ▸ hkey)
      simp [hne]

/-- **The role of a header** is the one whose token it presents. -/
theorem authenticate_eq_some_iff (hconfig : Configures lower sha256 env config)
    (hprotected : config.isProtected = true) {authorization : Option String}
    (hsha : NoCollision lower sha256 env authorization) {role : AuthRole} :
    config.authenticate lower sha256 authorization = some role ↔ Bears lower env authorization role := by
  cases hconfig with
  | localMode _ _ => cases hprotected
  | guarded mode _ _ _ hcredentials =>
    unfold AuthConfig.authenticate
    cases htoken : bearerToken lower authorization with
    | none =>
      refine ⟨fun h => (by cases h), fun h => ?_⟩
      rw [bearerToken_eq_some_iff.mpr h] at htoken
      cases htoken
    | some token =>
      have hpresents := bearerToken_eq_some_iff.mp htoken
      have hdigest : ∀ role, sha256 token = sha256 (tokenOf env role) ↔ token = tokenOf env role :=
        fun role => ⟨hsha token role hpresents, congrArg sha256⟩
      have hunique : ∀ a b, sha256 token = sha256 (tokenOf env a) →
          sha256 token = sha256 (tokenOf env b) → a = b := by
        intro a b ha hb
        exact hcredentials.distinct a b (((hdigest a).mp ha).symm.trans ((hdigest b).mp hb))
      have hloop := foldl_match_eq_some_iff hunique AuthRole.all none (by simp) role
      have hfold : (AuthRole.all.map fun role => (role, sha256 (tokenOf env role))).foldl
            (fun matched p => if sha256 token = p.2 then some p.1 else matched) none =
          AuthRole.all.foldl (fun found role =>
            if sha256 token = sha256 (tokenOf env role) then some role else found) none :=
        List.foldl_map ..
      show List.foldl _ none _ = some role ↔ _
      rw [hfold, hloop, hdigest]
      constructor
      · rintro ⟨rfl, -⟩
        exact hpresents
      · exact fun h => ⟨hpresents.unique h, Or.inl (mem_all role)⟩

/-- A protected configuration answers a request by the role it needs and the role it has. -/
theorem authorize_cases (hconfig : Configures lower sha256 env config)
    (hprotected : config.isProtected = true) {authorization : Option String}
    (hsha : NoCollision lower sha256 env authorization) {method path : String} {required : AuthRole}
    (hrequired : requiredRole upper method path = some required) :
    (∃ role, Bears lower env authorization role ∧
        authorize lower upper sha256 config method path authorization =
          if roleAllows role required then .forwarded else .forbidden) ∨
      ((∀ role, ¬ Bears lower env authorization role) ∧
        authorize lower upper sha256 config method path authorization = .unauthenticated) := by
  unfold authorize
  simp only [hrequired, hprotected, not_true_eq_false, if_false]
  cases hrole : config.authenticate lower sha256 authorization with
  | none =>
    refine Or.inr ⟨fun role hbears => ?_, rfl⟩
    rw [(authenticate_eq_some_iff hconfig hprotected hsha).mpr hbears] at hrole
    cases hrole
  | some role =>
    exact Or.inl ⟨role, (authenticate_eq_some_iff hconfig hprotected hsha).mp hrole, rfl⟩

/-- A header presents the token of one role. -/
theorem Bears.unique (hcredentials : Credentials env) {authorization : Option String}
    {role other : AuthRole} (h : Bears lower env authorization role)
    (h' : Bears lower env authorization other) : role = other :=
  hcredentials.distinct role other (Presents.unique h h')

/-- The header with a token of its own bears the token. -/
theorem bears_of_not_space (hlower : lower "bearer" = "bearer") (hcredentials : Credentials env)
    {role : AuthRole} (hspace : ∀ c ∈ (tokenOf env role).toList, isSpace c = false) :
    Bears lower env (some ("bearer" ++ " " ++ tokenOf env role)) role := by
  refine ⟨"bearer", by decide, hlower, ?_, hspace, rfl⟩
  intro hempty
  have hlength := (hcredentials.tokens role).1
  rw [hempty] at hlength
  exact absurd hlength (by decide)

theorem bearer_carried : ∀ c ∈ ("bearer" ++ " ").toList, c.toNat < 256 := by simp

/-- What the ingress of a protected deployment does with a request. -/
structure Guards (lower upper : String → String) (env : Env) (method path : String)
    (authorization : Option String) (outcome : Ingress) : Prop where
  forwarded : outcome = .forwarded ↔ requiredRole upper method path = none ∨
    ∃ required role, requiredRole upper method path = some required ∧
      Bears lower env authorization role ∧ roleAllows role required = true
  own_role : outcome = .forwarded → ∀ required, requiredRole upper method path = some required →
    required ≠ .readOnly → Bears lower env authorization required
  unauthenticated : outcome = .unauthenticated ↔ requiredRole upper method path ≠ none ∧
    ∀ role, ¬ Bears lower env authorization role
  forbidden : outcome = .forbidden ↔ ∃ required role, requiredRole upper method path = some required ∧
    Bears lower env authorization role ∧ roleAllows role required = false

/-- **What a request of a protected deployment gets.** -/
theorem guards_authorize (hconfigures : Configures lower sha256 env config)
    (hcredentials : Credentials env) (hprotected : config.isProtected = true)
    {method path : String} {authorization : Option String}
    (hsha : NoCollision lower sha256 env authorization) :
    Guards lower upper env method path authorization
      (authorize lower upper sha256 config method path authorization) := by
  cases hrequired : requiredRole upper method path with
  | none =>
    have houtcome : authorize lower upper sha256 config method path authorization = .forwarded := by
      unfold authorize
      rw [hrequired]
    rw [houtcome]
    exact ⟨by simp [hrequired], by simp [hrequired], by simp [hrequired], by simp [hrequired]⟩
  | some required =>
    rcases authorize_cases hconfigures hprotected hsha hrequired with
      ⟨role, hbears, houtcome⟩ | ⟨hnone, houtcome⟩
    · -- the token is that of one role, so the role decides
      have hrole : ∀ other, Bears lower env authorization other → other = role :=
        fun other hother => Bears.unique hcredentials hother hbears
      rw [houtcome]
      cases hallows : roleAllows role required with
      | true =>
        refine ⟨?_, ?_, ?_, ?_⟩
        -- one clause each: forwarded, writes, unauthenticated, forbidden
        · exact iff_of_true rfl (Or.inr ⟨required, role, hrequired, hbears, hallows⟩)
        · intro _ required' hrequired' hwrites
          obtain rfl := Option.some.inj (hrequired.symm.trans hrequired')
          rw [← eq_of_roleAllows hwrites hallows]
          exact hbears
        · exact iff_of_false (by simp) fun h => h.2 role hbears
        · refine iff_of_false (by simp) ?_
          rintro ⟨required', other, hrequired', hother, hno⟩
          obtain rfl := Option.some.inj (hrequired.symm.trans hrequired')
          rw [hrole other hother, hallows] at hno
          cases hno
      | false =>
        refine ⟨?_, by simp, ?_, ?_⟩
        · refine iff_of_false (by simp) ?_
          rintro (hpublic | ⟨required', other, hrequired', hother, hyes⟩)
          · exact absurd (hrequired.symm.trans hpublic) (by simp)
          · obtain rfl := Option.some.inj (hrequired.symm.trans hrequired')
            rw [hrole other hother, hallows] at hyes
            cases hyes
        · exact iff_of_false (by simp) fun h => h.2 role hbears
        · exact iff_of_true rfl ⟨required, role, hrequired, hbears, hallows⟩
    · rw [houtcome]
      refine ⟨?_, by simp, ?_, ?_⟩
      · refine iff_of_false (by simp) ?_
        rintro (hpublic | ⟨_, other, _, hother, _⟩)
        · exact absurd (hrequired.symm.trans hpublic) (by simp)
        · exact hnone other hother
      · exact iff_of_true rfl ⟨by rw [hrequired]; simp, hnone⟩
      · refine iff_of_false (by simp) ?_
        rintro ⟨_, other, _, hother, _⟩
        exact hnone other hother

variable (upper) in
/-- **The ingress.** An accepted environment is a local deployment, which lets every request through, or
has a token of its own for every role; then a request gets through exactly if its route is public or its
header presents the token of a role that the route allows, it is asked for credentials exactly if the header
presents no token of the three, and it is refused exactly if it presents the token of another role.  Some text
presents a token exactly if the token contains no white space, and some header that a request can carry
exactly if it is latin-1 besides, although startup accepts tokens with white space inside and any other
characters. -/
theorem ingress_of_accepted_environment (hlower : lower "bearer" = "bearer")
    (hconfig : fromEnv lower sha256 env = .ok config) :
    (config.isProtected = false → IsLocalDeployment (deployment lower env) ∧
      ∀ method path authorization,
        authorize lower upper sha256 config method path authorization = .forwarded) ∧
    (config.isProtected = true → Credentials env ∧
      (∀ method path authorization, NoCollision lower sha256 env authorization →
        Guards lower upper env method path authorization
          (authorize lower upper sha256 config method path authorization)) ∧
      (∀ role, (∃ authorization, Bears lower env authorization role) ↔
        ∀ c ∈ (tokenOf env role).toList, isSpace c = false) ∧
      ∀ role, (∃ authorization, IsCarried authorization ∧ Bears lower env authorization role) ↔
        ∀ c ∈ (tokenOf env role).toList, isSpace c = false ∧ c.toNat < 256) := by
  have hconfigures := fromEnv_ok_iff.mp hconfig
  constructor
  · intro hlocal
    have hall : ∀ method path authorization,
        authorize lower upper sha256 config method path authorization = .forwarded := by
      intro method path authorization
      unfold authorize
      cases requiredRole upper method path with
      | none => rfl
      | some required => simp [hlocal]
    cases hconfigures with
    | localMode _ hdeployment => exact ⟨hdeployment, hall⟩
    | guarded mode _ hmode _ _ => exact absurd hlocal (by simp [AuthConfig.isProtected, hmode])
  · intro hprotected
    have hcredentials := hconfigures.credentials hprotected
    refine ⟨hcredentials, fun method path authorization hsha => ?_, fun role => ⟨?_, fun hspace => ?_⟩,
      fun role => ⟨?_, fun htoken => ?_⟩⟩
    · exact guards_authorize hconfigures hcredentials hprotected hsha
    · rintro ⟨authorization, scheme, _, _, _, hspace, _⟩
      exact hspace
    · exact ⟨_, bears_of_not_space hlower hcredentials hspace⟩
    · rintro ⟨authorization, hcarried, scheme, _, _, _, hspace, rfl⟩ c hc
      refine ⟨hspace c hc, hcarried _ rfl c ?_⟩
      rw [String.toList_append]
      exact List.mem_append_right _ hc
    · refine ⟨_, ?_, bears_of_not_space hlower hcredentials fun c hc => (htoken c hc).1⟩
      rintro header ⟨⟩ c hc
      rw [String.toList_append] at hc
      rcases List.mem_append.mp hc with hscheme | hc
      · exact bearer_carried c hscheme
      · exact (htoken c hc).2

/-- An environment of a protected deployment, one of whose tokens no header can present. -/
def guardedEnv : Env := fun name =>
  if name = "MARKETPILOT_ENV" then some "production"
  else if name = "MARKETPILOT_CODE_VERSION" then some "commit:0123456789abcdef"
  else if name = "MARKETPILOT_READ_ONLY_TOKEN" then some "reader-token-000000000000000000000"
  else if name = "MARKETPILOT_OPERATOR_TOKEN" then some "operator-token-0000000000000000000"
  else if name = "MARKETPILOT_REVIEWER_TOKEN" then some "reviewer token 0000000000000000000"
  else none

/-- The reviewer's token of that environment is accepted and opens nothing. -/
theorem reviewer_of_guardedEnv_locked_out :
    (∃ config, fromEnv id (id : String → String) guardedEnv = .ok config) ∧
      ¬ ∃ authorization, Bears id guardedEnv authorization .reviewer := by
  have hconfig : Configures id (id : String → String) guardedEnv _ :=
    .guarded .production rfl (by simp) (by decide)
      ⟨fun role => by cases role <;> decide, fun role other => by cases role <;> cases other <;> decide⟩
  have haccepted := fromEnv_ok_iff.mpr hconfig
  have hguarded := (ingress_of_accepted_environment id rfl haccepted).2 rfl
  refine ⟨⟨_, haccepted⟩, fun hbears => ?_⟩
  have hspace := (hguarded.2.2.1 .reviewer).mp hbears ' ' (by decide)
  cases hspace

end Ingress

end MarketPilot.Auth
