/-
Which models a configuration gives for a purpose.

What the document says is put here as relations between its tables and what they give, apart from
how it is looked up: which route a purpose has, which models its chain names, who serves a model,
and which key an endpoint gets.  Every one of them has a case for what is there and for what is
not, so nothing is served because nothing is found, or because what is found is of no use.  A
document that is of no use in its place is related to nothing.

That the look-ups come to these and to nothing else is said for each of them in turn, up to the
candidates of a purpose (`candidates_eq_ok_iff`).
-/
import PhpMigration.Proofs.Attempt
import PhpMigration.Remote.Router

namespace PhpMigration

/-! ### Members -/

namespace Value

theorem needMembers_eq_ok_iff {v : Value} {members : Table Value} :
    v.needMembers = .ok members ↔ v = .object members := by
  cases v <;> simp [needMembers, pure, Except.pure, throw, throwThe, MonadExceptOf.throw]

theorem needMember_eq_ok_iff {v default value : Value} {name : String} :
    v.needMember name default = .ok value ↔
      ∃ members, v = .object members ∧ value = (Table.find? members name).getD default := by
  unfold needMember
  simp only [bind_eq_ok_iff, needMembers_eq_ok_iff, pure_eq_ok_iff]

theorem needText_eq_ok_iff {v : Value} {text : String} :
    v.needText = .ok text ↔ v = .text text := by
  cases v <;> simp [needText, pure, Except.pure, throw, throwThe, MonadExceptOf.throw]

end Value

/-- A member is missing, or counts as not given. -/
abbrev Table.Lacks (members : Table Value) (name : String) : Prop :=
  ((members.find? name).getD .null).isGiven = false

namespace Table

variable {members : Table Value} {name : String}

theorem isGiven_eq_false_iff {default : Value} (h : default.isGiven = false) :
    ((members.find? name).getD default).isGiven = false ↔ members.Lacks name := by
  unfold Lacks
  cases members.find? name with
  | none => exact iff_of_true h rfl
  | some v => exact Iff.rfl

theorem exists_of_not_lacks (h : ¬ members.Lacks name) :
    ∃ v, members.find? name = some v ∧ v.isGiven = true := by
  unfold Lacks at h
  cases hfind : members.find? name with
  | none => exact absurd (by rw [hfind]; rfl) h
  | some v => exact ⟨v, rfl, by simpa [hfind] using h⟩

end Table

namespace Routes

variable {r : Routes} {byHand : List String} {purpose : String}

/-- A part of the document holds some members; a part that is missing holds none. -/
def Holds (r : Routes) (part : String) (members : Table Value) : Prop :=
  ∃ document, r.document = .object document ∧
    (Table.find? document part).getD (.object []) = .object members

theorem members_eq_ok_iff {α : Type} {part : String} {f : Table Value → Except Misfit α} {a : α} :
    (do let members ← (← r.document.needMember part (.object [])).needMembers; f members) = .ok a ↔
      ∃ members, r.Holds part members ∧ f members = .ok a := by
  unfold Holds
  simp only [bind_eq_ok_iff, Value.needMember_eq_ok_iff, Value.needMembers_eq_ok_iff]
  constructor
  · rintro ⟨_, ⟨document, hdocument, rfl⟩, members, hmembers, h⟩
    exact ⟨members, ⟨document, hdocument, hmembers⟩, h⟩
  · rintro ⟨members, ⟨document, hdocument, hmembers⟩, h⟩
    exact ⟨_, ⟨document, hdocument, rfl⟩, members, hmembers, h⟩

/-! ### Chains -/

/-- The route of a purpose: its own, or else the default route, or else an empty one. -/
inductive IsRoute (routing : Table Value) (purpose : String) : Value → Prop
  | own {route : Value} (h : routing.find? purpose = some route) : IsRoute routing purpose route
  | default {route : Value} (hown : routing.find? purpose = none)
      (h : routing.find? "default" = some route) : IsRoute routing purpose route
  | empty (hown : routing.find? purpose = none) (hdefault : routing.find? "default" = none) :
      IsRoute routing purpose (.object [])

theorem isRoute_iff {routing : Table Value} {route : Value} : IsRoute routing purpose route ↔
    route = (routing.find? purpose).getD ((routing.find? "default").getD (.object [])) := by
  constructor
  · rintro (h | ⟨hown, h⟩ | ⟨hown, hdefault⟩)
    · rw [h, Option.getD_some]
    · rw [hown, h, Option.getD_none, Option.getD_some]
    · rw [hown, hdefault, Option.getD_none, Option.getD_none]
  · rintro rfl
    cases hown : routing.find? purpose with
    | some route => exact .own hown
    | none =>
        cases hdefault : routing.find? "default" with
        | some route => exact .default hown hdefault
        | none => exact .empty hown hdefault

/-- The names that a chain lists.  One that is not given lists nothing. -/
inductive Lists : Value → List Value → Prop
  | nothing {v : Value} (h : v.isGiven = false) : Lists v []
  | items {v : Value} {names : List Value} (hgiven : v.isGiven = true)
      (h : v.needItems = .ok names) : Lists v names

theorem lists_iff {v : Value} {names : List Value} :
    (if v.isGiven then v.needItems else pure []) = .ok names ↔ Lists v names := by
  constructor
  · intro h
    by_cases hgiven : v.isGiven = true
    · exact .items hgiven (by rwa [if_pos hgiven] at h)
    · rw [if_neg hgiven, pure_eq_ok_iff] at h
      exact h ▸ .nothing (Bool.not_eq_true _ ▸ hgiven)
  · rintro (hgiven | ⟨hgiven, h⟩)
    · rw [hgiven, if_neg Bool.false_ne_true]
      rfl
    · rw [if_pos hgiven, h]

/-- The chain of a purpose names some models. -/
def IsChain (r : Routes) (purpose : String) (names : List Value) : Prop :=
  ∃ routing route, r.Holds "routing" routing ∧ IsRoute routing purpose (.object route) ∧
    Lists ((Table.find? route "chain").getD (.list [])) names

theorem chain_eq_ok_iff {names : List Value} :
    r.chain purpose = .ok names ↔ r.IsChain purpose names := by
  constructor
  · intro h
    obtain ⟨_, hrouting, h⟩ := bind_eq_ok_iff.mp h
    obtain ⟨document, hdocument, rfl⟩ := Value.needMember_eq_ok_iff.mp hrouting
    obtain ⟨_, hdefault, h⟩ := bind_eq_ok_iff.mp h
    obtain ⟨routing, hmembers, rfl⟩ := Value.needMember_eq_ok_iff.mp hdefault
    rw [hmembers] at h
    obtain ⟨_, hown, h⟩ := bind_eq_ok_iff.mp h
    obtain ⟨_, hrouting', rfl⟩ := Value.needMember_eq_ok_iff.mp hown
    cases hrouting'
    obtain ⟨_, hchain, h⟩ := bind_eq_ok_iff.mp h
    obtain ⟨route, hroute, rfl⟩ := Value.needMember_eq_ok_iff.mp hchain
    exact ⟨routing, route, ⟨document, hdocument, hmembers⟩, isRoute_iff.mpr hroute.symm,
      lists_iff.mp h⟩
  · rintro ⟨routing, route, ⟨document, hdocument, hmembers⟩, hroute, hlists⟩
    have hrouting : r.document.needMember "routing" (.object []) = .ok (.object routing) :=
      Value.needMember_eq_ok_iff.mpr ⟨document, hdocument, hmembers.symm⟩
    have hown : (Value.object routing).needMember purpose
        ((routing.find? "default").getD (.object [])) = .ok (.object route) :=
      Value.needMember_eq_ok_iff.mpr ⟨routing, rfl, isRoute_iff.mp hroute⟩
    exact bind_eq_ok_iff.mpr ⟨_, hrouting, bind_eq_ok_iff.mpr ⟨_, rfl,
      bind_eq_ok_iff.mpr ⟨_, hown, lists_iff.mpr hlists⟩⟩⟩

/-! ### Keys and endpoints -/

/-- The key of a service: the one in its settings, or the value of the variable that they name.  No
variable need be named, but one that is named must have a value. -/
inductive HasKey (env : Environment) (settings : Table Value) : Option Value → Prop
  | own {key : Value} (h : settings.find? "api_key" = some key) (hgiven : key.isGiven = true) :
      HasKey env settings (some key)
  | unneeded (hown : settings.Lacks "api_key") (hsource : settings.Lacks "api_key_env") :
      HasKey env settings (some (.text ""))
  | named {name key : String} (hown : settings.Lacks "api_key")
      (hsource : settings.find? "api_key_env" = some (.text name)) (hname : name ≠ "")
      (h : Table.find? env name = some key) (hkey : key ≠ "") :
      HasKey env settings (some (.text key))
  | unset {name : String} (hown : settings.Lacks "api_key")
      (hsource : settings.find? "api_key_env" = some (.text name)) (hname : name ≠ "")
      (h : (Table.find? env name).getD "" = "") : HasKey env settings none

theorem setting_eq_ok_iff {env : Environment} {v : Value} {value : String} :
    setting env v = .ok value ↔
      ∃ name, v = .text name ∧ value = (Table.find? env name).getD "" := by
  unfold setting
  simp only [bind_eq_ok_iff, Value.needText_eq_ok_iff, pure_eq_ok_iff]

section

variable {env : Environment} {settings : Table Value}

theorem keyOf_of_own {key : Value} (h : settings.find? "api_key" = some key)
    (hgiven : key.isGiven = true) : keyOf env (.object settings) = .ok (some key) := by
  show (if !(((settings.find? "api_key").getD .null).orElse (.text "")).isGiven && _ then _
    else pure (some (((settings.find? "api_key").getD .null).orElse (.text "")))) = _
  rw [h, Option.getD_some, Value.orElse, hgiven, if_pos rfl, hgiven]
  rfl

theorem keyOf_of_lacks (hown : settings.Lacks "api_key") : keyOf env (.object settings) =
    if ((settings.find? "api_key_env").getD (.text "")).isGiven then do
      let key ← setting env ((settings.find? "api_key_env").getD (.text ""))
      pure (if key.isEmpty then none else some (.text key))
    else pure (some (.text "")) := by
  have hlost : ((settings.find? "api_key").getD .null).orElse (.text "") = .text "" := by
    rw [Value.orElse, hown, if_neg Bool.false_ne_true]
  show (if !(((settings.find? "api_key").getD .null).orElse (.text "")).isGiven && _ then _
    else pure (some (((settings.find? "api_key").getD .null).orElse (.text "")))) = _
  rw [hlost]
  rfl

theorem keyOf_of_named {name : String} (hown : settings.Lacks "api_key")
    (hsource : settings.find? "api_key_env" = some (.text name)) (hname : name ≠ "") :
    keyOf env (.object settings) = .ok
      (if (Table.find? env name).getD "" = "" then none
        else some (.text ((Table.find? env name).getD ""))) := by
  have hgiven : (Value.text name).isGiven = true := by simpa [Value.isGiven] using hname
  rw [keyOf_of_lacks hown, hsource, Option.getD_some, if_pos hgiven]
  show Except.ok _ = Except.ok _
  simp only [String.isEmpty_iff]

theorem keyOf_eq_ok_iff {key : Option Value} :
    keyOf env (.object settings) = .ok key ↔ HasKey env settings key := by
  constructor
  · intro h
    by_cases hown : settings.Lacks "api_key"
    · by_cases hsource : settings.Lacks "api_key_env"
      · rw [keyOf_of_lacks hown, (Table.isGiven_eq_false_iff rfl).mpr hsource] at h
        cases h
        exact .unneeded hown hsource
      · obtain ⟨source, hfind, hgiven⟩ := Table.exists_of_not_lacks hsource
        obtain ⟨name, rfl⟩ : ∃ name, source = .text name := by
          rw [keyOf_of_lacks hown, hfind, Option.getD_some, if_pos hgiven] at h
          obtain ⟨_, hvalue, -⟩ := bind_eq_ok_iff.mp h
          obtain ⟨name, hname, -⟩ := setting_eq_ok_iff.mp hvalue
          exact ⟨name, hname⟩
        have hname : name ≠ "" := by simpa [Value.isGiven] using hgiven
        rw [keyOf_of_named hown hfind hname] at h
        cases hvalue : Table.find? env name with
        | none =>
            rw [hvalue] at h
            cases h
            exact .unset hown hfind hname (by rw [hvalue]; rfl)
        | some value =>
            rw [hvalue, Option.getD_some] at h
            by_cases hempty : value = ""
            · rw [if_pos hempty] at h
              cases h
              exact .unset hown hfind hname (by rw [hvalue]; exact hempty)
            · rw [if_neg hempty] at h
              cases h
              exact .named hown hfind hname hvalue hempty
    · obtain ⟨own, hfind, hgiven⟩ := Table.exists_of_not_lacks hown
      rw [keyOf_of_own hfind hgiven] at h
      cases h
      exact .own hfind hgiven
  · intro h
    cases h with
    | own h hgiven => exact keyOf_of_own h hgiven
    | unneeded hown hsource =>
        rw [keyOf_of_lacks hown, (Table.isGiven_eq_false_iff rfl).mpr hsource]
        rfl
    | named hown hsource hname h hkey =>
        rw [keyOf_of_named hown hsource hname, h, Option.getD_some, if_neg hkey]
    | unset hown hsource hname h => rw [keyOf_of_named hown hsource hname, if_pos h]

end

/-- A key that is asked for is there. -/
theorem HasKey.isGiven {env : Environment} {settings : Table Value} {key : Value}
    (h : HasKey env settings (some key)) (hsource : ¬ settings.Lacks "api_key_env") :
    key.isGiven = true := by
  cases h with
  | own h hgiven => exact hgiven
  | unneeded hown hlacks => exact absurd hlacks hsource
  | named hown hnamed hname h hkey => simpa [Value.isGiven] using hkey

/-- A service is an endpoint by its type. -/
def IsEndpoint (settings : Table Value) : Prop :=
  settings.find? "type" = some (.text "openai") ∨
    settings.find? "type" = some (.text "openai_compatible")

/-- The endpoint that the settings of a service describe, if they describe one. -/
inductive Describes (env : Environment) (label : String) (settings : Table Value) :
    Option Endpoint → Prop
  | otherwise (htype : ¬ IsEndpoint settings) : Describes env label settings none
  | keyless (htype : IsEndpoint settings) (hkey : HasKey env settings none) :
      Describes env label settings none
  | endpoint (htype : IsEndpoint settings) {key : Value} (hkey : HasKey env settings (some key))
      {timeout : Double}
      (htimeout : ((settings.find? "timeout_seconds").getD (.int 60)).needDouble = .ok timeout) :
      Describes env label settings
        (some
          { label := .text label
            key
            address := expandAddress env
              ((settings.find? "base_url").getD (.text "https://api.openai.com/v1"))
            timeout := .number (.double timeout) })

theorem isEndpoint_iff {settings : Table Value} :
    ((settings.find? "type").getD (.text "")).text?.any endpointTypes.contains = true ↔
      IsEndpoint settings := by
  unfold IsEndpoint endpointTypes
  cases settings.find? "type" with
  | none => simp [Value.text?]
  | some v => cases v <;> simp [Value.text?]

theorem endpointOf_eq_ok_iff {env : Environment} {label : String} {settings : Value}
    {e : Option Endpoint} : endpointOf env label settings = .ok e ↔
      ∃ members, settings = .object members ∧ Describes env label members e := by
  unfold endpointOf
  constructor
  · intro h
    obtain ⟨_, htype, h⟩ := bind_eq_ok_iff.mp h
    obtain ⟨members, rfl, rfl⟩ := Value.needMember_eq_ok_iff.mp htype
    refine ⟨members, rfl, ?_⟩
    by_cases hendpoint : IsEndpoint members
    · rw [isEndpoint_iff.mpr hendpoint] at h
      obtain ⟨key, hkey, h⟩ := bind_eq_ok_iff.mp h
      rw [keyOf_eq_ok_iff] at hkey
      cases key with
      | none =>
          cases h
          exact .keyless hendpoint hkey
      | some key =>
          obtain ⟨_, haddress, h⟩ := bind_eq_ok_iff.mp h
          obtain ⟨_, hseconds, h⟩ := bind_eq_ok_iff.mp h
          obtain ⟨timeout, htimeout, hyields⟩ := bind_eq_ok_iff.mp h
          cases haddress
          cases hseconds
          cases hyields
          exact .endpoint hendpoint hkey htimeout
    · rw [Bool.eq_false_iff.mpr (isEndpoint_iff.not.mpr hendpoint)] at h
      cases h
      exact .otherwise hendpoint
  · rintro ⟨members, rfl, h⟩
    refine bind_eq_ok_iff.mpr ⟨_, rfl, ?_⟩
    cases h with
    | otherwise hother =>
        rw [Bool.eq_false_iff.mpr (isEndpoint_iff.not.mpr hother)]
        rfl
    | keyless hendpoint hkey =>
        rw [isEndpoint_iff.mpr hendpoint]
        exact bind_eq_ok_iff.mpr ⟨none, keyOf_eq_ok_iff.mpr hkey, rfl⟩
    | endpoint hendpoint hkey htimeout =>
        rw [isEndpoint_iff.mpr hendpoint]
        refine bind_eq_ok_iff.mpr ⟨some _, keyOf_eq_ok_iff.mpr hkey, ?_⟩
        exact bind_eq_ok_iff.mpr ⟨_, rfl, bind_eq_ok_iff.mpr ⟨_, rfl,
          bind_eq_ok_iff.mpr ⟨_, htimeout, rfl⟩⟩⟩

/-! ### Servers and models -/

/-- Who serves a name, if anybody does: a service that was set up by hand goes before the one that
is configured under the name. -/
inductive Serves (r : Routes) (byHand : List String) : Value → Option Server → Prop
  | byHand {name : String} (h : name ∈ byHand) : Serves r byHand (.text name) (some (.byHand name))
  | nameless {v : Value} (h : nameOf v = .ok none) {services : Table Value}
      (hservices : r.Holds "providers" services) : Serves r byHand v none
  | unknown {name : String} (hfree : name ∉ byHand) {services : Table Value}
      (hservices : r.Holds "providers" services) (h : services.Lacks name) :
      Serves r byHand (.text name) none
  | configured {name : String} (hfree : name ∉ byHand) {services settings : Table Value}
      (hservices : r.Holds "providers" services)
      (h : services.find? name = some (.object settings)) (hgiven : settings ≠ [])
      {e : Option Endpoint} (hdescribes : Describes r.environment name settings e) :
      Serves r byHand (.text name) (e.map .endpoint)

theorem nameOf_eq_some_iff {v : Value} {name : String} :
    nameOf v = .ok (some name) ↔ v = .text name := by
  cases v <;> simp [nameOf, pure, Except.pure, throw, throwThe, MonadExceptOf.throw]

theorem server?_eq_ok_iff {v : Value} {server : Option Server} :
    r.server? byHand v = .ok server ↔ r.Serves byHand v server := by
  unfold server?
  rw [bind_eq_ok_iff]
  constructor
  · rintro ⟨known, hknown, h⟩
    cases known with
    | none =>
        obtain ⟨services, hservices, h⟩ := members_eq_ok_iff.mp h
        cases h
        exact .nameless hknown hservices
    | some name =>
        obtain rfl := nameOf_eq_some_iff.mp hknown
        by_cases hmem : name ∈ byHand
        · rw [Option.any_some, List.contains_iff_mem.mpr hmem] at h
          cases h
          exact .byHand hmem
        · have hfree : byHand.contains name = false := by simpa using hmem
          rw [Option.any_some, hfree] at h
          obtain ⟨services, hservices, h⟩ := members_eq_ok_iff.mp h
          dsimp only at h
          by_cases hlacks : services.Lacks name
          · rw [hlacks] at h
            cases h
            exact .unknown hmem hservices hlacks
          · obtain ⟨settings, hfind, hgiven⟩ := Table.exists_of_not_lacks hlacks
            rw [hfind, Option.getD_some, hgiven] at h
            obtain ⟨e, he, hyields⟩ := bind_eq_ok_iff.mp h
            obtain ⟨members, rfl, hdescribes⟩ := endpointOf_eq_ok_iff.mp he
            cases hyields
            exact .configured hmem hservices hfind (by rintro rfl; cases hgiven) hdescribes
  · intro h
    cases h with
    | byHand hmem =>
        refine ⟨some _, rfl, ?_⟩
        rw [Option.any_some, List.contains_iff_mem.mpr hmem]
        rfl
    | nameless hname hservices =>
        exact ⟨none, hname, members_eq_ok_iff.mpr ⟨_, hservices, rfl⟩⟩
    | unknown hfree hservices hlacks =>
        refine ⟨some _, rfl, ?_⟩
        rw [Option.any_some, if_neg (by simpa using hfree)]
        refine members_eq_ok_iff.mpr ⟨_, hservices, ?_⟩
        dsimp only
        rw [hlacks]
        rfl
    | configured hfree hservices hfind hgiven hdescribes =>
        refine ⟨some _, rfl, ?_⟩
        rw [Option.any_some, if_neg (by simpa using hfree)]
        refine members_eq_ok_iff.mpr ⟨_, hservices, ?_⟩
        dsimp only
        rw [hfind, Option.getD_some, if_neg (by simpa [Value.isGiven] using hgiven)]
        exact bind_eq_ok_iff.mpr ⟨_, endpointOf_eq_ok_iff.mpr ⟨_, rfl, hdescribes⟩, rfl⟩

/-- An endpoint that serves is described by the document. -/
theorem Serves.exists_describes {v : Value} {e : Endpoint}
    (h : r.Serves byHand v (some (.endpoint e))) : ∃ label services settings,
      r.Holds "providers" services ∧ services.find? label = some (.object settings) ∧
        Describes r.environment label settings (some e) := by
  generalize hfound : some (Server.endpoint e) = found at h
  cases h with
  | byHand | nameless | unknown => cases hfound
  | configured hfree hservices hfind hgiven hdescribes =>
      obtain ⟨_, rfl, hserver⟩ := Option.map_eq_some_iff.mp hfound.symm
      cases hserver
      exact ⟨_, _, _, hservices, hfind, hdescribes⟩

/-- The model of a name, if anybody serves it. -/
inductive Builds (r : Routes) (byHand : List String) : Value → Option Model → Prop
  | nameless {v : Value} (h : nameOf v = .ok none) {models : Table Value}
      (hmodels : r.Holds "models" models) : Builds r byHand v none
  | unknown {name : String} {models : Table Value} (hmodels : r.Holds "models" models)
      (h : models.Lacks name) : Builds r byHand (.text name) none
  | configured {name : String} {models settings : Table Value} (hmodels : r.Holds "models" models)
      (h : models.find? name = some (.object settings)) (hgiven : settings ≠ [])
      {server : Option Server}
      (hserves : r.Serves byHand ((settings.find? "provider").getD (.text "")) server) :
      Builds r byHand (.text name) (server.map fun server =>
        { server, name, id := (settings.find? "model_id").getD (.text ""),
          settings := .object settings })

theorem model?_eq_ok_iff {v : Value} {m : Option Model} :
    r.model? byHand v = .ok m ↔ r.Builds byHand v m := by
  unfold model?
  rw [members_eq_ok_iff]
  constructor
  · rintro ⟨models, hmodels, h⟩
    obtain ⟨known, hknown, hsettings⟩ := bind_eq_ok_iff.mp h
    cases known with
    | none =>
        cases hsettings
        exact .nameless hknown hmodels
    | some name =>
        obtain rfl := nameOf_eq_some_iff.mp hknown
        dsimp only at hsettings
        by_cases hlacks : models.Lacks name
        · rw [hlacks] at hsettings
          cases hsettings
          exact .unknown hmodels hlacks
        · obtain ⟨settings, hfind, hgiven⟩ := Table.exists_of_not_lacks hlacks
          rw [hfind, Option.getD_some, hgiven] at hsettings
          obtain ⟨_, hservice, hserved⟩ := bind_eq_ok_iff.mp hsettings
          obtain ⟨members, rfl, rfl⟩ := Value.needMember_eq_ok_iff.mp hservice
          obtain ⟨server, hserver, hyields⟩ := bind_eq_ok_iff.mp hserved
          cases hyields
          exact .configured hmodels hfind (by rintro rfl; cases hgiven)
            (server?_eq_ok_iff.mp hserver)
  · intro h
    cases h with
    | nameless hname hmodels => exact ⟨_, hmodels, bind_eq_ok_iff.mpr ⟨none, hname, rfl⟩⟩
    | unknown hmodels hlacks =>
        refine ⟨_, hmodels, bind_eq_ok_iff.mpr ⟨some _, rfl, ?_⟩⟩
        dsimp only
        rw [hlacks]
        rfl
    | configured hmodels hfind hgiven hserves =>
        refine ⟨_, hmodels, bind_eq_ok_iff.mpr ⟨some _, rfl, ?_⟩⟩
        dsimp only
        rw [hfind, Option.getD_some, if_neg (by simpa [Value.isGiven] using hgiven)]
        exact bind_eq_ok_iff.mpr ⟨_, rfl,
          bind_eq_ok_iff.mpr ⟨_, server?_eq_ok_iff.mpr hserves, rfl⟩⟩

/-- A model is known by the name that stands in the chain. -/
theorem Builds.name_eq {v : Value} {m : Model} (h : r.Builds byHand v (some m)) :
    v = .text m.name := by
  generalize hfound : some m = found at h
  cases h with
  | nameless | unknown => cases hfound
  | configured =>
      obtain ⟨server, -, rfl⟩ := Option.map_eq_some_iff.mp hfound.symm
      rfl

theorem Builds.exists_serves {v : Value} {m : Model} (h : r.Builds byHand v (some m)) :
    ∃ service, r.Serves byHand service (some m.server) := by
  generalize hfound : some m = found at h
  cases h with
  | nameless | unknown => cases hfound
  | configured hmodels hfind hgiven hserves =>
      obtain ⟨server, rfl, rfl⟩ := Option.map_eq_some_iff.mp hfound.symm
      exact ⟨_, hserves⟩

theorem Builds.unique {v : Value} {m m' : Option Model} (h : r.Builds byHand v m)
    (h' : r.Builds byHand v m') : m = m' :=
  Except.ok.inj ((model?_eq_ok_iff.mpr h).symm.trans (model?_eq_ok_iff.mpr h'))

/-- The models of a purpose that somebody serves, in the order of its chain. -/
def HasCandidates (r : Routes) (byHand : List String) (purpose : String)
    (candidates : List Model) : Prop :=
  ∃ names found, r.IsChain purpose names ∧ List.Forall₂ (r.Builds byHand) names found ∧
    candidates = found.reduceOption

theorem candidates_eq_ok_iff {candidates : List Model} :
    r.candidates byHand purpose = .ok candidates ↔ r.HasCandidates byHand purpose candidates := by
  unfold Routes.candidates HasCandidates
  simp only [bind_eq_ok_iff, filterMapM_eq_ok_iff, chain_eq_ok_iff, model?_eq_ok_iff,
    exists_and_left]

end Routes

end PhpMigration
