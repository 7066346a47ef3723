import PluginRegistry.Proofs.TokenConfinement
import PluginRegistry.Python.Urllib
import PluginRegistry.Services.DeploymentValues

namespace PluginRegistry
open Lib

/-- A URL with a user in front of its host, around the password: `host` is all that
follows the `@`. -/
structure CredentialUrl where
  scheme : String
  user : String
  host : String
  scheme_plain : ':' ∉ scheme.toList
  user_plain : ':' ∉ user.toList

namespace CredentialUrl

variable {url : CredentialUrl} {password password' : String}

def text (url : CredentialUrl) (password : String) : String :=
  url.scheme ++ "://" ++ (url.user ++ ":" ++ (password ++ "@" ++ url.host))

def maskedHost (url : CredentialUrl) (password : String) : String :=
  match splitOnce "@" password with
  | none => url.host
  | some (_, rest) => rest ++ "@" ++ url.host

def leaked (password : String) : Option String :=
  (splitOnce "@" password).map Prod.snd

def Masks (url : CredentialUrl) (password password' : String) : Prop :=
  password = password' ∨ '@' ∉ url.user.toList ∧ leaked password = leaked password'

theorem text_inj : url.text password = url.text password' ↔ password = password' := by
  unfold text
  rw [String.append_right_inj, String.append_right_inj, String.append_left_inj,
    String.append_left_inj]

theorem maskedHost_inj :
    url.maskedHost password = url.maskedHost password' ↔ leaked password = leaked password' := by
  have hlonger : ∀ rest : String, url.host ≠ rest ++ "@" ++ url.host := by
    intro rest h
    have hlength := congrArg String.length h
    rw [String.length_append, String.length_append] at hlength
    have hat : "@".length = 1 := rfl
    omega
  unfold maskedHost leaked
  cases splitOnce "@" password with
  | none =>
    cases splitOnce "@" password' with
    | none => simp
    | some parts =>
      have hne := hlonger parts.2
      simp [hne]
  | some parts =>
    cases splitOnce "@" password' with
    | none =>
      have hne := (hlonger parts.2).symm
      simp [hne]
    | some parts' =>
      change parts.2 ++ "@" ++ url.host = parts'.2 ++ "@" ++ url.host ↔ _
      rw [String.append_left_inj, String.append_left_inj]
      simp

theorem splitOnce_text :
    splitOnce "://" (url.text password) =
      some (url.scheme, url.user ++ ":" ++ (password ++ "@" ++ url.host)) := by
  unfold text
  exact splitOnce_append (show "://".toList = ':' :: ['/', '/'] from rfl) url.scheme_plain _

theorem at_mem_text : (url.text password).toList.contains '@' = true := by
  simp [text]

/-- A user with an `@` hides the colon from the mask, and nothing is masked. -/
theorem mask_of_user_at (h : '@' ∈ url.user.toList) (password : String) :
    maskUrlSecret (url.text password) = .ok (url.text password) := by
  rcases splitOnce_cases (show "@".toList = ['@'] from rfl) url.user with
    ⟨hno, -⟩ | ⟨front, rest, huser, hfront, -⟩
  · exact absurd h hno
  · have hcolon : ':' ∉ front.toList := by
      have hplain := url.user_plain
      rw [huser] at hplain
      simp only [String.toList_append, List.mem_append, not_or] at hplain
      exact hplain.1.1
    have hrest : url.user ++ ":" ++ (password ++ "@" ++ url.host) =
        front ++ "@" ++ (rest ++ ":" ++ (password ++ "@" ++ url.host)) := by
      rw [huser]
      simp only [String.append_assoc]
    have hcredentials : splitOnce ":" front = none := by
      rcases splitOnce_cases (show ":".toList = [':'] from rfl) front with
        ⟨-, hnone⟩ | ⟨before, after, hcut, -⟩
      · exact hnone
      · exact absurd (by simp [hcut]) hcolon
    unfold maskUrlSecret
    rw [splitOnce_text]
    dsimp only
    rw [at_mem_text, hrest, splitOnce_append (show "@".toList = '@' :: [] from rfl) hfront]
    dsimp only
    rw [hcredentials]
    rfl

/-- Where the user has no `@`, the mask hides the password up to its own first one. -/
theorem mask_of_user_plain (h : '@' ∉ url.user.toList) (password : String) :
    maskUrlSecret (url.text password) =
      .ok (url.scheme ++ "://" ++ url.user ++ ":••••@" ++ url.maskedHost password) := by
  have hsplit : ∃ hidden, splitOnce "@" (url.user ++ ":" ++ (password ++ "@" ++ url.host)) =
      some (url.user ++ ":" ++ hidden, url.maskedHost password) := by
    unfold maskedHost
    rcases splitOnce_cases (show "@".toList = ['@'] from rfl) password with
      ⟨hno, hnone⟩ | ⟨front, rest, hpassword, hfront, hsome⟩
    · refine ⟨password, ?_⟩
      rw [hnone, ← String.append_assoc, ← String.append_assoc]
      exact splitOnce_append (show "@".toList = '@' :: [] from rfl) (by simp [h, hno]) _
    · refine ⟨front, ?_⟩
      rw [hsome]
      have htext : url.user ++ ":" ++ (password ++ "@" ++ url.host) =
          url.user ++ ":" ++ front ++ "@" ++ (rest ++ "@" ++ url.host) := by
        rw [hpassword]
        simp only [String.append_assoc]
      rw [htext]
      exact splitOnce_append (show "@".toList = '@' :: [] from rfl) (by simp [h, hfront]) _
  obtain ⟨hidden, hsplit⟩ := hsplit
  unfold maskUrlSecret
  rw [splitOnce_text]
  dsimp only
  rw [at_mem_text, hsplit]
  dsimp only
  rw [splitOnce_append (show ":".toList = ':' :: [] from rfl) url.user_plain]
  rfl

/-- The mask always answers, and tells two passwords apart by what it leaves of them. -/
theorem mask_exists (url : CredentialUrl) : ∃ masked : String → String,
    (∀ password, maskUrlSecret (url.text password) = .ok (masked password)) ∧
      ∀ password password', masked password = masked password' ↔
        url.Masks password password' := by
  by_cases h : '@' ∈ url.user.toList
  · refine ⟨url.text, mask_of_user_at h, fun password password' => ?_⟩
    rw [text_inj, Masks]
    simp [h]
  · refine ⟨_, mask_of_user_plain h, fun password password' => ?_⟩
    rw [String.append_right_inj, maskedHost_inj, Masks]
    constructor
    · intro hleaked
      exact Or.inr ⟨h, hleaked⟩
    · rintro (rfl | ⟨-, hleaked⟩)
      · rfl
      · exact hleaked

end CredentialUrl

inductive ConfiguredUrl
  | plain (text : String)
  | credentials (url : CredentialUrl)

namespace ConfiguredUrl

def text : ConfiguredUrl → String → String
  | plain value, _ => value
  | credentials url, password => url.text password

def Masks : ConfiguredUrl → String → String → Prop
  | plain _, _, _ => True
  | credentials url, password, password' => url.Masks password password'

def Refused : ConfiguredUrl → Prop
  | plain value => value.toList.contains '@' = true ∧
      ∃ parts, splitOnce "://" value = some parts ∧ '@' ∉ parts.2.toList
  | credentials _ => False

theorem mask_plain (value : String) :
    (plain value).Refused ∧ (∃ error, maskUrlSecret value = .error error) ∨
      ¬ (plain value).Refused ∧ ∃ masked, maskUrlSecret value = .ok masked := by
  change (_ ∧ _) ∧ _ ∨ ¬ (_ ∧ _) ∧ _
  unfold maskUrlSecret
  cases splitOnce "://" value with
  | none =>
    refine Or.inr ⟨?_, _, rfl⟩
    rintro ⟨-, parts, hparts, -⟩
    cases hparts
  | some parts =>
    obtain ⟨scheme, rest⟩ := parts
    cases value.toList.contains '@' with
    | false => exact Or.inr ⟨fun h => Bool.false_ne_true h.1, _, rfl⟩
    | true =>
      rcases splitOnce_cases (show "@".toList = ['@'] from rfl) rest with
        ⟨hno, hnone⟩ | ⟨front, host, hrest, -, hsome⟩
      · refine Or.inl ⟨⟨rfl, _, rfl, hno⟩, ?_⟩
        dsimp only
        rw [hnone]
        exact ⟨_, rfl⟩
      · refine Or.inr ⟨?_, ?_⟩
        · rintro ⟨-, parts, hparts, hno⟩
          obtain rfl := Option.some.inj hparts
          exact hno (by simp [hrest])
        · dsimp only
          rw [hsome]
          dsimp only
          cases splitOnce ":" front with
          | none => exact ⟨_, rfl⟩
          | some parts => exact ⟨_, rfl⟩

/-- A setting is refused whatever the password, or masked so that two passwords are
told apart exactly by what is left of them. -/
theorem mask_cases (url : ConfiguredUrl) :
    url.Refused ∧ (∃ error, ∀ password, maskUrlSecret (url.text password) = .error error) ∨
      ¬ url.Refused ∧ ∃ masked : String → String,
        (∀ password, maskUrlSecret (url.text password) = .ok (masked password)) ∧
          ∀ password password', masked password = masked password' ↔
            url.Masks password password' := by
  cases url with
  | plain value =>
    rcases mask_plain value with ⟨hrefused, error, herror⟩ | ⟨hrefused, masked, hmasked⟩
    · exact Or.inl ⟨hrefused, error, fun _ => herror⟩
    · exact Or.inr ⟨hrefused, fun _ => masked, fun _ => hmasked, by simp [Masks]⟩
  | credentials url => exact Or.inr ⟨not_false, url.mask_exists⟩

end ConfiguredUrl

def BothSet (value value' : String) : Prop :=
  value = value' ∨ value ≠ "" ∧ value' ≠ ""

structure Settings.DifferInSecrets (settings settings' : Settings) : Prop where
  rest : settings' =
    { settings with
      gitHttpProxy := settings'.gitHttpProxy
      githubToken := settings'.githubToken
      githubWebhookSecret := settings'.githubWebhookSecret
      virustotal := { settings.virustotal with apiKey := settings'.virustotal.apiKey }
      llmAgent := { settings.llmAgent with apiKey := settings'.llmAgent.apiKey } }
  gitHttpProxy : BothSet settings.gitHttpProxy settings'.gitHttpProxy
  githubToken : BothSet settings.githubToken settings'.githubToken
  githubWebhookSecret : BothSet settings.githubWebhookSecret settings'.githubWebhookSecret
  virustotalApiKey : BothSet settings.virustotal.apiKey settings'.virustotal.apiKey
  llmAgentApiKey : BothSet settings.llmAgent.apiKey settings'.llmAgent.apiKey

def SecretPair (key value value' : String) : Prop :=
  value = value' ∨ key ∈ sensitiveConfigKeys ∧ value ≠ "" ∧ value' ≠ ""

def RowsDifferInSecrets (rows rows' : ConfigRows) : Prop :=
  List.Forall₂ (fun e f => e.1 = f.1 ∧ SecretPair e.1 e.2 f.2) rows.entries rows'.entries

section
variable {key value value' : String} {settings settings' : Settings} {rows rows' : ConfigRows}

theorem BothSet.pair (h : BothSet value value') (hkey : key ∈ sensitiveConfigKeys) :
    SecretPair key value value' := by
  rcases h with heq | hset
  · exact Or.inl heq
  · exact Or.inr ⟨hkey, hset⟩

theorem SecretPair.eq (h : SecretPair key value value') (hkey : key ∉ sensitiveConfigKeys) :
    value = value' := by
  rcases h with heq | ⟨hmem, -⟩
  · exact heq
  · exact absurd hmem hkey

theorem SecretPair.truthy_eq (h : SecretPair key value value') :
    truthy (some value) = truthy (some value') := by
  rcases h with rfl | ⟨-, hv, hv'⟩
  · rfl
  · have hset : ∀ text : String, text ≠ "" → truthy (some text) = true := by
      intro text htext
      simpa [truthy] using htext
    rw [hset _ hv, hset _ hv']

theorem Settings.DifferInSecrets.defaults (h : settings.DifferInSecrets settings') :
    List.Forall₂ (fun f g => f.1 = g.1 ∧ SecretPair f.1 f.2 g.2)
      settings.effectiveConfigDefaults settings'.effectiveConfigDefaults := by
  have hproxy := h.gitHttpProxy.pair (show "GIT_HTTP_PROXY" ∈ sensitiveConfigKeys by decide)
  have htoken := h.githubToken.pair (show "GITHUB_TOKEN" ∈ sensitiveConfigKeys by decide)
  have hhook := h.githubWebhookSecret.pair
    (show "GITHUB_WEBHOOK_SECRET" ∈ sensitiveConfigKeys by decide)
  have hvirus := h.virustotalApiKey.pair
    (show "VIRUSTOTAL_API_KEY" ∈ sensitiveConfigKeys by decide)
  have hagent := h.llmAgentApiKey.pair (show "LLM_AGENT_API_KEY" ∈ sensitiveConfigKeys by decide)
  have hrefl : ∀ key value, SecretPair key value value := fun _ _ => Or.inl rfl
  rw [h.rest]
  simp only [Settings.effectiveConfigDefaults, List.forall₂_cons, List.forall₂_nil_left_iff,
    hrefl, hproxy, htoken, hhook, hvirus, hagent, and_self]

theorem RowsDifferInSecrets.lookup (h : RowsDifferInSecrets rows rows') (key : String) :
    (rows.lookup key = none ∧ rows'.lookup key = none) ∨
      ∃ value value', rows.lookup key = some value ∧ rows'.lookup key = some value' ∧
        SecretPair key value value' := by
  change (rows.entries.dlookup key = none ∧ rows'.entries.dlookup key = none) ∨
    ∃ value value', rows.entries.dlookup key = some value ∧
      rows'.entries.dlookup key = some value' ∧ SecretPair key value value'
  unfold RowsDifferInSecrets at h
  generalize rows.entries = entries at h ⊢
  generalize rows'.entries = entries' at h ⊢
  induction h with
  | nil => exact Or.inl ⟨rfl, rfl⟩
  | @cons e f entries entries' hrow _ ih =>
    obtain ⟨i, value⟩ := e
    obtain ⟨j, value'⟩ := f
    obtain ⟨rfl, hpair⟩ := hrow
    by_cases hi : key = i
    · subst hi
      rw [List.dlookup_cons_eq, List.dlookup_cons_eq]
      exact Or.inr ⟨_, _, rfl, rfl, hpair⟩
    · have hnext : ∀ (v : String) (es : List (Sigma fun _ : String => String)),
          List.dlookup key (⟨i, v⟩ :: es) = es.dlookup key :=
        fun v es => List.dlookup_cons_ne es ⟨i, v⟩ hi
      rw [hnext, hnext]
      exact ih

theorem RowsDifferInSecrets.keep (h : RowsDifferInSecrets rows rows') :
    rows.keep (fun key _ => !sensitiveConfigKeys.contains key) =
      rows'.keep (fun key _ => !sensitiveConfigKeys.contains key) := by
  apply AList.ext
  unfold Table.keep
  dsimp only
  unfold RowsDifferInSecrets at h
  generalize rows.entries = entries at h ⊢
  generalize rows'.entries = entries' at h ⊢
  induction h with
  | nil => rfl
  | @cons e f entries entries' hrow _ ih =>
    obtain ⟨i, value⟩ := e
    obtain ⟨j, value'⟩ := f
    obtain ⟨rfl, hpair⟩ := hrow
    dsimp only at hpair
    rw [List.filter_cons, List.filter_cons, ih]
    by_cases hi : i ∈ sensitiveConfigKeys
    · simp [hi]
    · rw [hpair.eq hi]

theorem Settings.DifferInSecrets.openDefaults (h : settings.DifferInSecrets settings') :
    settings.effectiveConfigDefaults.filter (fun row => !sensitiveConfigKeys.contains row.1) =
      settings'.effectiveConfigDefaults.filter fun row => !sensitiveConfigKeys.contains row.1 := by
  have hrows := h.defaults
  generalize settings.effectiveConfigDefaults = d at hrows ⊢
  generalize settings'.effectiveConfigDefaults = d' at hrows ⊢
  induction hrows with
  | nil => rfl
  | @cons f g d d' hrow _ ih =>
    rw [List.filter_cons, List.filter_cons, ih, ← hrow.1]
    by_cases hf : f.1 ∈ sensitiveConfigKeys
    · simp [hf]
    · have hfg : f = g := Prod.ext hrow.1 (hrow.2.eq hf)
      rw [hfg]

theorem Settings.DifferInSecrets.default_truthy (h : settings.DifferInSecrets settings')
    (key : String) :
    truthy (settings.effectiveConfigDefaults.lookup key) =
      truthy (settings'.effectiveConfigDefaults.lookup key) := by
  have hrows := h.defaults
  generalize settings.effectiveConfigDefaults = d at hrows ⊢
  generalize settings'.effectiveConfigDefaults = d' at hrows ⊢
  induction hrows with
  | nil => rfl
  | @cons f g d d' hrow _ ih =>
    obtain ⟨i, value⟩ := f
    obtain ⟨j, value'⟩ := g
    obtain ⟨rfl, hpair⟩ := hrow
    rw [List.lookup_cons, List.lookup_cons]
    cases key == i with
    | true => exact hpair.truthy_eq
    | false => exact ih

/-- Nothing but the deployment values can tell the two apart. -/
theorem buildConfigResponse_eq (hsettings : settings.DifferInSecrets settings')
    (hrows : RowsDifferInSecrets rows rows') :
    buildConfigResponse settings rows = buildConfigResponse settings' rows' := by
  have hlookup : ∀ key, key ∉ sensitiveConfigKeys → rows.lookup key = rows'.lookup key := by
    intro key hkey
    rcases hrows.lookup key with ⟨hnone, hnone'⟩ | ⟨value, value', hsome, hsome', hpair⟩
    · rw [hnone, hnone']
    · rw [hsome, hsome', hpair.eq hkey]
  have htruthy : ∀ key, truthy (rows.lookup key) = truthy (rows'.lookup key) := by
    intro key
    rcases hrows.lookup key with ⟨hnone, hnone'⟩ | ⟨value, value', hsome, hsome', hpair⟩
    · rw [hnone, hnone']
    · rw [hsome, hsome', hpair.truthy_eq]
  unfold buildConfigResponse
  rw [ConfigResponse.mk.injEq]
  refine ⟨hrows.keep, ?_, ?_⟩
  · rw [hsettings.openDefaults]
    apply List.map_congr_left
    intro row hrow
    have hopen : row.1 ∉ sensitiveConfigKeys := by
      simpa using (List.mem_filter.mp hrow).2
    rw [hlookup _ hopen]
  · apply List.map_congr_left
    intro key _
    rw [htruthy, hsettings.default_truthy]

end

def DeploymentSettings.withUrls (deployment : DeploymentSettings) (database : ConfiguredUrl)
    (redis : Option ConfiguredUrl) (password redisPassword : String) : DeploymentSettings :=
  { deployment with
    databaseUrl := database.text password
    redisUrl := redis.map fun url => url.text redisPassword }

section
variable (deployment : DeploymentSettings) (database : ConfiguredUrl)
  (redis : Option ConfiguredUrl) (p p' q q' : String)

/-- When two deployments that differ in their passwords show the same values. -/
theorem deploymentValues_eq_iff :
    (deployment.withUrls database redis p q).deploymentValues =
        (deployment.withUrls database redis p' q').deploymentValues ↔
      database.Refused ∨ (redis.getD (.plain "")).Refused ∨
        database.Masks p p' ∧ (redis.getD (.plain "")).Masks q q' := by
  have hredis : ∀ password, (redis.map fun url => url.text password).getD "" =
      (redis.getD (.plain "")).text password := by
    intro password
    cases redis <;> rfl
  unfold DeploymentSettings.deploymentValues DeploymentSettings.withUrls
  dsimp only
  rw [hredis, hredis]
  rcases database.mask_cases with
    ⟨hrefused, error, herror⟩ | ⟨hrefused, masked, hmasked, hiff⟩
  · rw [herror, herror]
    exact iff_of_true rfl (Or.inl hrefused)
  rw [hmasked, hmasked]
  rcases (redis.getD (.plain "")).mask_cases with
    ⟨hrefused', error, herror⟩ | ⟨hrefused', masked', hmasked', hiff'⟩
  · rw [herror, herror]
    exact iff_of_true rfl (Or.inr (Or.inl hrefused'))
  rw [hmasked', hmasked', ← hiff, ← hiff', or_iff_right hrefused, or_iff_right hrefused']
  constructor
  · intro h
    have hrows := Except.ok.inj h
    simp only [List.cons.injEq, Prod.mk.injEq, true_and, and_true] at hrows
    exact hrows
  · rintro ⟨hdatabase, hredis'⟩
    rw [hdatabase, hredis']

theorem configView_deploymentValues (settings : Settings) (rows : ConfigRows) :
    (configView settings deployment rows).map ConfigView.deploymentValues =
      deployment.deploymentValues := by
  unfold configView
  cases deployment.deploymentValues <;> rfl

end

/-- Two configurations that differ only in set secrets and URL passwords look the same
exactly if a URL is refused altogether or the masks hide both differences. -/
theorem secrets_hidden_iff {settings settings' : Settings} {rows rows' : ConfigRows}
    (hsettings : settings.DifferInSecrets settings') (hrows : RowsDifferInSecrets rows rows')
    (deployment : DeploymentSettings) (database : ConfiguredUrl) (redis : Option ConfiguredUrl)
    (p p' q q' : String) :
    (configView settings (deployment.withUrls database redis p q) rows =
          configView settings' (deployment.withUrls database redis p' q') rows' ∧
        (deployment.withUrls database redis p q).deploymentValues =
          (deployment.withUrls database redis p' q').deploymentValues) ↔
      database.Refused ∨ (redis.getD (.plain "")).Refused ∨
        database.Masks p p' ∧ (redis.getD (.plain "")).Masks q q' := by
  rw [← deploymentValues_eq_iff deployment]
  constructor
  · exact And.right
  · intro h
    refine ⟨?_, h⟩
    unfold configView
    rw [h, buildConfigResponse_eq hsettings hrows]

def tokenSettings (token : String) : Settings :=
  { Settings.default with githubToken := token }

def webhookRows (secret : String) : ConfigRows :=
  AList.insert "GITHUB_WEBHOOK_SECRET" secret ∅

def redisUrl : CredentialUrl where
  scheme := "redis"
  user := ""
  host := "localhost:6379"
  scheme_plain := by decide
  user_plain := by decide

def redisDeployment (password : String) : DeploymentSettings :=
  DeploymentSettings.default.withUrls (.plain "") (some (.credentials redisUrl)) "" password

theorem webhookRows_differ {secret secret' : String} (h : secret ≠ "") (h' : secret' ≠ "") :
    RowsDifferInSecrets (webhookRows secret) (webhookRows secret') := by
  have hrow : ∀ value, (webhookRows value).entries = [⟨"GITHUB_WEBHOOK_SECRET", value⟩] :=
    fun _ => rfl
  have hkey : "GITHUB_WEBHOOK_SECRET" ∈ sensitiveConfigKeys := by decide
  unfold RowsDifferInSecrets
  rw [hrow, hrow]
  exact .cons ⟨rfl, Or.inr ⟨hkey, h, h'⟩⟩ .nil

theorem tokenSettings_differ {token token' : String} (h : token ≠ "") (h' : token' ≠ "") :
    (tokenSettings token).DifferInSecrets (tokenSettings token') :=
  ⟨rfl, Or.inl rfl, Or.inr ⟨h, h'⟩, Or.inl rfl, Or.inl rfl, Or.inl rfl⟩

theorem secrets_hidden_stored :
    configView (tokenSettings "a") (redisDeployment "pass") (webhookRows "s") =
      configView (tokenSettings "b") (redisDeployment "word") (webhookRows "t") :=
  ((secrets_hidden_iff (tokenSettings_differ (by decide) (by decide))
    (webhookRows_differ (by decide) (by decide))
    .default (.plain "") (some (.credentials redisUrl)) "" "" "pass" "word").mpr
      (Or.inr (Or.inr ⟨trivial, Or.inr ⟨by decide, by decide⟩⟩))).1

/-- The reader of the URL takes `p@ss` for the password, and the mask leaves `ss`. -/
theorem at_sign_leaks :
    (urlparse ⟨asciiLower, fun _ => true, id⟩ (redisUrl.text "p@ss")).map ParseResult.password =
        .ok (some "p@ss") ∧
      (urlparse ⟨asciiLower, fun _ => true, id⟩ (redisUrl.text "p@th")).map ParseResult.password =
        .ok (some "p@th") ∧
      maskUrlSecret (redisUrl.text "p@ss") = .ok "redis://:••••@ss@localhost:6379" ∧
      configView .default (redisDeployment "p@ss") ∅ ≠
        configView .default (redisDeployment "p@th") ∅ := by
  refine ⟨rfl, rfl, rfl, ?_⟩
  intro h
  have hvalues := congrArg (Except.map ConfigView.deploymentValues) h
  rw [configView_deploymentValues, configView_deploymentValues] at hvalues
  rcases (deploymentValues_eq_iff _ _ _ _ _ _ _).mp hvalues with
    ⟨hat, -⟩ | hrefused | ⟨-, hmasks⟩
  · exact absurd hat (by decide)
  · exact hrefused
  · rcases hmasks with hpassword | ⟨-, hleaked⟩
    · exact absurd hpassword (by decide)
    · exact absurd hleaked (by decide)

end PluginRegistry
