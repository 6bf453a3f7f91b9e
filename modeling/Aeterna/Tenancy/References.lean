import Aeterna.Tenancy.Outcomes
import Aeterna.Tenancy.Registry

namespace Aeterna.Tenancy
open Lib (Eff)
open Lib.Eff
open List hiding get

namespace TenantTable
variable {table next : TenantTable} {condition : Tenant → Bool} {f : Tenant → Tenant} {same : ∀ t, (f t).id = t.id}
  {t u : Tenant} {id : Uuid}

theorem row?_eq_some : table.row? id = some t ↔ t ∈ table.rows ∧ t.id = id := by
  constructor
  · intro found
    exact ⟨mem_of_find?_eq_some found, by simpa using find?_some found⟩
  · rintro ⟨member, rfl⟩
    cases found : table.row? t.id with
    | none => exact absurd (find?_eq_none.mp found t member) (by simp)
    | some other =>
      have known : other.id = t.id := by simpa using find?_some found
      exact congrArg some (inj_on_of_nodup_map table.ids (mem_of_find?_eq_some found) member known)

theorem update_rows (done : table.update condition f same = .ok next) : next.rows = table.updated condition f := by
  unfold update at done
  split at done <;> cases done
  rfl

theorem row?_update (done : table.update condition f same = .ok next) (id : Uuid) :
    next.row? id = (table.row? id).map (fun t => if condition t then f t else t) := by
  unfold row?
  rw [update_rows done, updated, find?_map]
  congr 1
  refine congrFun (congrArg find? (funext fun t => ?_)) table.rows
  simp only [Function.comp_apply]
  split
  · rw [same]
  · rfl

theorem update_of_slugs (slugs : ∀ t, (f t).slug = t.slug) : ∃ next, table.update condition f same = .ok next := by
  have kept : (table.updated condition f).map Tenant.slug = table.rows.map Tenant.slug := by
    rw [updated, map_map]
    refine map_congr_left (fun t _ => ?_)
    show Tenant.slug (if condition t then f t else t) = t.slug
    split
    · exact slugs t
    · rfl
  unfold update
  rw [dif_pos (by rw [kept]; exact table.slugs)]
  exact ⟨_, rfl⟩

end TenantTable

namespace Registry

structure Sole (table : TenantTable) (slug : String) (id : Uuid) : Prop where
  here : ∃ t, table.row? id = some t ∧ t.slug = slug
  bySlug : ∀ u ∈ table.rows, u.isNamed slug = true → u.id = id
  byId : ∀ u ∈ table.rows, u.isNamed id.text = true → u.id = id

/-- Only what belongs to one tenant was written. -/
structure Apart (id : Uuid) (s next : Registry) : Prop where
  rows : ∀ other, other ≠ id → next.table.row? other = s.table.row? other
  domains : ∀ other, other ≠ id → next.domains other = s.domains other
  parts : ∀ other, other ≠ id → next.parts other = s.parts other

theorem Apart.refl (id : Uuid) (s : Registry) : Apart id s s := ⟨fun _ _ => rfl, fun _ _ => rfl, fun _ _ => rfl⟩

/-- A slug leads to one tenant, whatever row the database returns first and whatever calls fail. -/
structure NamesOne (table : TenantTable) (t : Tenant) : Prop where
  get : ∀ env first (s : Registry) found next, s.table = table →
    getTenant env first t.slug s = (.ok found, next) → found = some t
  ensure : ∀ env first source (s : Registry) record next, s.table = table →
    ensureTenantWithSource env first t.slug source s = (.ok record, next) → record = t
  update : ∀ env first slug name environment (s : Registry), s.table = table →
    Apart t.id s (updateTenant env first t.slug slug name environment s).2
  attach : ∀ env first account (s : Registry), s.table = table →
    Apart t.id s (attachAccount env first t.slug account s).2
  deactivate : ∀ env first (s : Registry), s.table = table → Apart t.id s (deactivateTenant env first t.slug s).2
  provision : ∀ env first backend m hash generation (s : Registry), s.table = table →
    validateManifest m = [] → m.tenant.slug = t.slug →
    Apart t.id s (provision env first backend m hash generation s).2

section
variable {env : Surroundings} {first : List Tenant → Nat} {slug tenantRef : String} {id : Uuid} {s₀ s next : Registry}
  {t : Tenant}

variable {α : Type} {hash : String} {generation : Int}

theorem call_ok {f : Registry → Except PostgresError (α × Registry)} {a : α}
    (done : call env f s = (.ok a, next)) : ∃ after, f s = .ok (a, after) ∧
      next = { after with calls := s.calls + 1 } := by
  unfold call at done
  split at done
  · cases done
  · cases done
  · rename_i found
    cases done
    exact ⟨_, found, rfl⟩

theorem call_yields {f : Registry → Except PostgresError (α × Registry)} {I : Registry → Prop}
    {Q : α → Prop} (uncounted : ∀ s n, I s → I { s with calls := n })
    (step : ∀ s a next, I s → f s = .ok (a, next) → I next ∧ Q a) :
    Yields I Q (call env f) := by
  intro s holds
  unfold call
  split
  · exact ⟨uncounted _ _ holds, fun _ impossible => by cases impossible⟩
  · exact ⟨uncounted _ _ holds, fun _ impossible => by cases impossible⟩
  · rename_i found
    obtain ⟨kept, returned⟩ := step _ _ _ holds found
    refine ⟨uncounted _ _ kept, fun a same => ?_⟩
    cases same
    exact returned

theorem firstOf_some {found : List Tenant} (member : t ∈ found) : ∃ u, firstOf first found = some u ∧ u ∈ found := by
  have bound : first found % found.length < found.length := Nat.mod_lt _ (length_pos_of_mem member)
  exact ⟨_, getElem?_eq_getElem bound, getElem_mem bound⟩

def Leads (slug : String) (id : Uuid) (tenantRef : String) : Prop := tenantRef = slug ∨ tenantRef = id.text

theorem Sole.leads (sole : Sole s.table slug id) (leads : Leads slug id tenantRef) :
    (∀ u ∈ s.table.rows, u.isNamed tenantRef = true → u.id = id) ∧
    ∃ t ∈ s.table.rows, t.isNamed tenantRef = true ∧ t.id = id := by
  obtain ⟨t, found, known⟩ := sole.here
  obtain ⟨member, same⟩ := TenantTable.row?_eq_some.mp found
  rcases leads with rfl | rfl
  · exact ⟨sole.bySlug, t, member, by simp [Tenant.isNamed, known], same⟩
  · refine ⟨sole.byId, t, member, ?_, same⟩
    have text : t.row.id.text = id.text := congrArg Uuid.text same
    simp [Tenant.isNamed, text]

theorem Sole.update {table next : TenantTable} {condition : Tenant → Bool} {f : Tenant → Tenant}
    {same : ∀ t, (f t).id = t.id} (sole : Sole table slug id) (done : table.update condition f same = .ok next)
    (own : ∀ u ∈ table.rows, condition u = true → u.id = id) (slugs : ∀ t, (f t).slug = t.slug) :
      Sole next slug id := by
  have each : ∀ tenantRef, (∀ u ∈ table.rows, u.isNamed tenantRef = true → u.id = id) →
      ∀ u ∈ next.rows, u.isNamed tenantRef = true → u.id = id := by
    intro tenantRef before u member named
    rw [TenantTable.update_rows done] at member
    obtain ⟨v, inside, rfl⟩ := mem_map.mp member
    by_cases hit : condition v = true
    · rw [if_pos hit, same]
      exact own v inside hit
    · rw [if_neg hit] at named ⊢
      exact before v inside named
  constructor
  · obtain ⟨t, found, known⟩ := sole.here
    rw [TenantTable.row?_update done, found]
    refine ⟨_, rfl, ?_⟩
    show Tenant.slug (if condition t = true then f t else t) = slug
    split
    · rw [slugs, known]
    · exact known
  · exact each slug sole.bySlug
  · exact each id.text sole.byId

theorem Apart.update {table : TenantTable} {condition : Tenant → Bool} {f : Tenant → Tenant}
    {same : ∀ t, (f t).id = t.id} (done : s.table.update condition f same = .ok table)
    (own : ∀ u ∈ s.table.rows, condition u = true → u.id = id) : Apart id s { s with table } := by
  refine ⟨fun other apart => ?_, fun _ _ => rfl, fun _ _ => rfl⟩
  rw [TenantTable.row?_update done]
  cases found : s.table.row? other with
  | none => rfl
  | some u =>
    obtain ⟨member, known⟩ := TenantTable.row?_eq_some.mp found
    have miss : ¬ condition u = true := fun hit => apart (known.symm.trans (own u member hit))
    rw [Option.map_some, if_neg miss]

theorem Apart.trans {last : Registry} (left : Apart id s next) (right : Apart id next last) : Apart id s last :=
  ⟨fun other apart => (right.rows other apart).trans (left.rows other apart),
    fun other apart => (right.domains other apart).trans (left.domains other apart),
    fun other apart => (right.parts other apart).trans (left.parts other apart)⟩

/-- A state on the way, in which the slug still leads to one tenant. -/
structure Within (slug : String) (id : Uuid) (s₀ s : Registry) : Prop where
  sole : Sole s.table slug id
  apart : Apart id s₀ s

theorem Within.uncounted (s : Registry) (n : Nat) (within : Within slug id s₀ s) :
    Within slug id s₀ { s with calls := n } :=
  ⟨within.sole, within.apart.trans ⟨fun _ _ => rfl, fun _ _ => rfl, fun _ _ => rfl⟩⟩

theorem getTenant_yields (leads : Leads slug id tenantRef) :
    Yields (Within slug id s₀) (fun found => ∃ t, found = some t ∧ t.id = id) (getTenant env first tenantRef) := by
  refine call_yields Within.uncounted (fun s found next within done => ?_)
  cases done
  obtain ⟨only, t, member, named, -⟩ := within.sole.leads leads
  have hit : t ∈ s.table.rows.filter (·.isNamed tenantRef) := mem_filter.mpr ⟨member, named⟩
  obtain ⟨u, read, inside⟩ := firstOf_some hit
  obtain ⟨stored, alike⟩ := mem_filter.mp inside
  exact ⟨within, u, read, only u stored alike⟩

theorem updateNamed_yields {f : Tenant → Tenant} {same : ∀ t, (f t).id = t.id} (leads : Leads slug id tenantRef)
    (slugs : ∀ t, (f t).slug = t.slug) :
    Yields (Within slug id s₀) (fun found => ∃ t, found = some t ∧ t.id = id)
      (updateNamed env first tenantRef f same) := by
  refine call_yields Within.uncounted (fun s found next within done => ?_)
  obtain ⟨only, t, member, named, -⟩ := within.sole.leads leads
  obtain ⟨table, written, done⟩ := Lib.except_bind_ok.mp done
  cases done
  have hit : t ∈ s.table.rows.filter (·.isNamed tenantRef) := mem_filter.mpr ⟨member, named⟩
  obtain ⟨u, read, inside⟩ := firstOf_some (mem_map_of_mem (f := f) hit)
  obtain ⟨v, among, rfl⟩ := mem_map.mp inside
  obtain ⟨stored, alike⟩ := mem_filter.mp among
  refine ⟨⟨within.sole.update written only slugs, within.apart.trans (.update written only)⟩, f v, read, ?_⟩
  rw [same]
  exact only v stored alike

theorem updateTenant_yields {name environment : Option String} (leads : Leads slug id tenantRef) :
    Yields (Within slug id s₀) (fun found => ∃ t, found = some t ∧ t.id = id)
      (updateTenant env first tenantRef none name environment) := by
  refine .bind (updateNamed_yields leads (fun _ => rfl)) (fun updated returned => ?_)
  obtain ⟨t, rfl, known⟩ := returned
  exact .pure ⟨t, rfl, known⟩

theorem attachAccount_yields {account : AccountRef} (leads : Leads slug id tenantRef) :
    Yields (Within slug id s₀) (fun found => ∀ t, found = some t → t.id = id)
      (attachAccount env first tenantRef account) := by
  unfold attachAccount
  split
  · apply Yields.mono
    · exact updateNamed_yields leads (fun _ => rfl)
    · rintro found ⟨u, rfl, known⟩ t read
      cases read
      exact known
  · refine call_yields Within.uncounted (fun s found next within done => ?_)
    cases done
    exact ⟨within, fun _ impossible => by cases impossible⟩

theorem ensureTenantWithSource_yields {source : RecordSource} :
    Yields (Within slug id s₀) (fun t => t.id = id) (ensureTenantWithSource env first slug source) := by
  refine .bind (getTenant_yields (.inl rfl)) (fun found returned => ?_)
  obtain ⟨t, rfl, known⟩ := returned
  exact .pure known

variable {backend : Backend} {m : TenantManifest}

theorem ensureTenantStep_yields (slugged : m.tenant.slug = slug) :
    Yields (Within slug id s₀) (fun t => t.id = id) (ensureTenantStep env first m) := by
  unfold ensureTenantStep
  rw [slugged]
  refine .bind (.mapError ensureTenantWithSource_yields) (fun record known => ?_)
  refine .bind (Q := fun _ => True) ?_ (fun account _ => ?_)
  · cases m.tenant.accountRef with
    | none => exact .pure trivial
    | some accountRef =>
      refine .bind (Q := fun _ => True)
        (.mapError (call_yields Within.uncounted (fun s found next within done => ?_)))
        (fun found _ => ?_)
      · cases done
        exact ⟨within, trivial⟩
      · cases found with
        | some account => exact .pure trivial
        | none => exact .fail _
  · rw [known]
    refine .bind (.mapError (updateTenant_yields (.inr rfl))) (fun updated returned => ?_)
    obtain ⟨t, rfl, same⟩ := returned
    cases account with
    | none => exact .pure same
    | some account =>
      dsimp only [Option.getD_some]
      rw [same]
      refine .bind (.mapError (attachAccount_yields (.inr rfl))) (fun attached each => ?_)
      cases attached with
      | none => exact .pure same
      | some u => exact .pure (each u rfl)

theorem mapDomain_keeps {domain : String} : Keeps (Within slug id s₀) (mapDomain env first backend id domain) := by
  refine .bind (.outcome (Yields.keeps (Q := fun _ => True)
    (.bind (getTenant_yields (.inr rfl)) (fun found returned => ?_))))
    (fun outcome => ?_)
  · obtain ⟨t, rfl, known⟩ := returned
    refine call_yields Within.uncounted (fun s a next within done => ⟨?_, trivial⟩)
    dsimp only at done
    split at done
    · cases done
    · cases done
      refine ⟨within.sole, within.apart.trans ⟨fun _ _ => rfl, fun other apart => ?_, fun _ _ => rfl⟩⟩
      rw [known]
      exact Function.update_of_ne apart _ _
  · cases outcome <;> exact .pure _

theorem domainsStep_keeps : Keeps (Within slug id s₀) (domainsStep env first backend m id) := by
  unfold domainsStep
  cases m.tenant.domainMappings with
  | none => exact .pure _
  | some domains => exact .bind (.gather (fun _ _ => mapDomain_keeps)) (fun _ => .pure _)

theorem within_keeps {x : Steady α} : Keeps (Within slug id s₀) (within id x) := by
  refine fun s inside => ⟨inside.sole, inside.apart.trans ⟨fun _ _ => rfl, fun _ _ => rfl, fun other apart => ?_⟩⟩
  exact Function.update_of_ne apart _ _

theorem writeManifestState_ok {u : Unit} (done : writeManifestState env slug hash generation s = .ok (u, next)) :
    ∃ (f : Tenant → Tenant) (same : ∀ t, (f t).id = t.id) (table : TenantTable),
      s.table.update (·.slug = slug) f same = .ok table ∧ next = { s with table } ∧
      ∀ t, (f t).slug = t.slug ∧ (f t).row.updatedAt = env.now := by
  unfold writeManifestState at done
  split at done
  · split at done
    · cases done
    · split at done
      · cases done
      · obtain ⟨table, written, done⟩ := Lib.except_bind_ok.mp done
        cases done
        exact ⟨_, _, table, written, rfl, fun _ => ⟨rfl, rfl⟩⟩
  · cases done

theorem setManifestState_keeps : Keeps (Within slug id s₀) (setManifestState env slug hash generation) := by
  refine Yields.keeps (Q := fun _ => True) (call_yields Within.uncounted (fun s a next inside done => ⟨?_, trivial⟩))
  obtain ⟨f, same, table, written, rfl, each⟩ := writeManifestState_ok done
  have own : ∀ u ∈ s.table.rows, decide (u.slug = slug) = true → u.id = id := fun u member same =>
    inside.sole.bySlug u member (by simp [Tenant.isNamed, of_decide_eq_true same])
  exact ⟨inside.sole.update written own (fun t => (each t).1), inside.apart.trans (.update written own)⟩

theorem persistStep_keeps {steps : List ProvisionStep} (slugged : m.tenant.slug = slug) :
    Keeps (Within slug id s₀) (persistStep env m hash generation steps) := by
  unfold persistStep
  rw [slugged]
  split
  · refine .bind (.outcome setManifestState_keeps) (fun outcome => ?_)
    cases outcome <;> exact .pure _
  · exact .pure _

theorem provision_keeps (slugged : m.tenant.slug = slug) :
    Keeps (Within slug id s₀) (provision env first backend m hash generation) := by
  refine Yields.keeps (Q := fun _ => True) (.bind (ensureTenantStep_yields slugged) (fun t known => Keeps.yields ?_))
  rw [known]
  refine .bind (.mapError domainsStep_keeps) (fun _ => .bind (.mapError within_keeps) (fun _ => ?_))
  exact .bind (.mapError (persistStep_keeps slugged)) (fun _ => .pure _)

/-- No other tenant goes by the slug of `t`, or by its id, where a manifest can state the slug. -/
def Unconfused (table : TenantTable) (t : Tenant) : Prop :=
  ∀ u ∈ table.rows, u ≠ t → u.id.text ≠ t.slug ∧ u.row.name ≠ t.slug ∧
    (validateSlug t.slug = [] → u.slug ≠ t.id.text ∧ u.row.name ≠ t.id.text)

variable {table : TenantTable}

section
variable (stored : t ∈ table.rows) (unconfused : Unconfused table t)
include stored unconfused

theorem only_slug {u : Tenant} (member : u ∈ table.rows) (named : u.isNamed t.slug = true) : u = t := by
  by_contra other
  obtain ⟨text, name, -⟩ := unconfused u member other
  have slugs : u.slug ≠ t.slug := fun same => other (inj_on_of_nodup_map table.slugs member stored same)
  have miss : ¬ (u.row.id.text = t.slug ∨ u.slug = t.slug ∨ u.row.name = t.slug) := by
    rintro (hit | hit | hit)
    · exact text hit
    · exact slugs hit
    · exact name hit
  exact miss (by simpa [Tenant.isNamed] using named)

theorem sole_of_unconfused (valid : validateSlug t.slug = []) : Sole table t.slug t.id := by
  constructor
  · exact ⟨t, TenantTable.row?_eq_some.mpr ⟨stored, rfl⟩, rfl⟩
  · intro u member named
    rw [only_slug stored unconfused member named]
  · intro u member named
    by_contra apart
    have other : u ≠ t := fun same => apart (congrArg Tenant.id same)
    obtain ⟨-, -, byId⟩ := unconfused u member other
    obtain ⟨slug, name⟩ := byId valid
    have named : u.row.id.text = t.id.text ∨ u.slug = t.id.text ∨ u.row.name = t.id.text := by
      simpa [Tenant.isNamed] using named
    rcases named with hit | hit | hit
    · exact apart (Uuid.text_inj.mp hit)
    · exact slug hit
    · exact name hit

theorem getTenant_only (same : s.table = table)
    {found : Option Tenant} (done : getTenant env first t.slug s = (.ok found, next)) : found = some t := by
  obtain ⟨after, read, -⟩ := call_ok done
  cases read
  have hit : t ∈ s.table.rows.filter (·.isNamed t.slug) :=
    mem_filter.mpr ⟨same ▸ stored, by simp [Tenant.isNamed]⟩
  obtain ⟨u, read, inside⟩ := firstOf_some hit
  obtain ⟨member, named⟩ := mem_filter.mp inside
  rw [read, only_slug stored unconfused (same ▸ member) named]

end

theorem Apart.uncounted {n : Nat} (apart : Apart id s₀ s) : Apart id s₀ { s with calls := n } :=
  ⟨apart.rows, apart.domains, apart.parts⟩

theorem call_apart {f : Registry → Except PostgresError (α × Registry)}
    (step : ∀ a next, f s = .ok (a, next) → Apart id s next) : Apart id s (call env f s).2 := by
  unfold call
  split
  · exact .uncounted (.refl _ _)
  · exact .uncounted (.refl _ _)
  · rename_i found
    exact .uncounted (step _ _ found)

theorem getTenant_apart : Keeps (Apart id s₀) (getTenant env first tenantRef) := by
  refine Yields.keeps (Q := fun _ => True)
    (call_yields (fun _ _ => .uncounted) (fun s found next apart done => ⟨?_, trivial⟩))
  cases done
  exact apart

theorem updateNamed_apart {f : Tenant → Tenant} {same : ∀ t, (f t).id = t.id} (stored : t ∈ s.table.rows)
    (unconfused : Unconfused s.table t) : Apart t.id s (updateNamed env first t.slug f same s).2 := by
  have own : ∀ u ∈ s.table.rows, u.isNamed t.slug = true → u.id = t.id := fun u member named => by
    rw [only_slug stored unconfused member named]
  refine call_apart (fun found next done => ?_)
  obtain ⟨table, written, done⟩ := Lib.except_bind_ok.mp done
  cases done
  exact .update written own

theorem namesOne_of_unconfused (stored : t ∈ table.rows) (unconfused : Unconfused table t) : NamesOne table t := by
  constructor
  · intro env first s found next same done
    exact getTenant_only stored unconfused same done
  · intro env first source s record next same done
    obtain ⟨found, after, got, done⟩ := bind_ok done
    rw [getTenant_only stored unconfused same got] at done
    cases done
    rfl
  · rintro env first slug name environment s rfl
    refine Keeps.follow (fun updated => ?_) (updateNamed_apart stored unconfused)
    cases updated with
    | some u => exact .pure _
    | none => exact getTenant_apart
  · rintro env first account s rfl
    unfold attachAccount
    split
    · exact updateNamed_apart stored unconfused
    · refine call_apart (fun found next done => ?_)
      cases done
      exact .refl _ _
  · rintro env first s rfl
    refine Keeps.follow (fun updated => ?_) (updateNamed_apart stored unconfused)
    cases updated with
    | some u => exact .pure _
    | none => exact getTenant_apart
  · rintro env first backend m hash generation s rfl valid slugged
    have validSlug : validateSlug t.slug = [] := by
      simp only [validateManifest, append_eq_nil_iff] at valid
      rw [← slugged]
      exact valid.1.1.1.1.1.1.2
    exact (provision_keeps slugged s ⟨sole_of_unconfused stored unconfused validSlug, .refl _ _⟩).apart

def calmAt (now : DateTime) (id : Uuid) : Surroundings where
  now
  newTenantId := id
  newBindingId := id
  newSecretId _ := id
  newOrganizationId _ := id
  newTeamId _ _ := id
  newUnitId _ := id

theorem call_calm {f : Registry → Except PostgresError (α × Registry)} {a : α} {now : DateTime}
    (next : Registry) (done : f s = .ok (a, next)) :
    call (calmAt now id) f s = (.ok a, { next with calls := s.calls + 1 }) := by
  unfold call
  rw [show (calmAt now id).fault s.calls = none from rfl, done]

def WrittenAt (now : DateTime) (other : Uuid) (s : Registry) : Prop :=
  ∃ u, s.table.row? other = some u ∧ u.row.updatedAt = now

variable {now : DateTime} {other : Uuid}

theorem WrittenAt.update {table : TenantTable} {condition : Tenant → Bool} {f : Tenant → Tenant}
    {same : ∀ t, (f t).id = t.id} (written : WrittenAt now other s)
    (done : s.table.update condition f same = .ok table) (stamps : ∀ t, (f t).row.updatedAt = now) :
    WrittenAt now other { s with table } := by
  obtain ⟨u, found, at_⟩ := written
  refine ⟨if condition u then f u else u, ?_, ?_⟩
  · rw [TenantTable.row?_update done, found]
    rfl
  · split
    · exact stamps u
    · exact at_

variable (first id s now) in
theorem updateNamed_writes (f : Tenant → Tenant) (same : ∀ t, (f t).id = t.id) {u : Tenant}
    (slugs : ∀ t, (f t).slug = t.slug) (stamps : ∀ t, (f t).row.updatedAt = now) (stored : u ∈ s.table.rows)
    (named : u.isNamed tenantRef = true) :
    ∃ v next, updateNamed (calmAt now id) first tenantRef f same s = (.ok (some v), next) ∧
      WrittenAt now u.id next := by
  obtain ⟨table, written⟩ : ∃ table, s.table.update (·.isNamed tenantRef) f same = .ok table :=
    TenantTable.update_of_slugs slugs
  have hit : u ∈ s.table.rows.filter (·.isNamed tenantRef) := mem_filter.mpr ⟨stored, named⟩
  have changed := mem_map_of_mem (f := f) hit
  obtain ⟨v, read, -⟩ : ∃ v, firstOf first ((s.table.rows.filter (·.isNamed tenantRef)).map f) = some v ∧ v ∈ _ :=
    firstOf_some changed
  refine ⟨v, { s with table, calls := s.calls + 1 }, ?_, f u, ?_, stamps u⟩
  · refine call_calm { s with table } ?_
    rw [written, ← read]
    rfl
  · rw [TenantTable.row?_update written, TenantTable.row?_eq_some.mpr ⟨stored, rfl⟩]
    exact congrArg some (if_pos named)

theorem Apart.same_of_writtenAt {u : Tenant} (apart : Apart id s next) (stored : u ∈ s.table.rows)
    (new : u.row.updatedAt ≠ now) (written : WrittenAt now u.id next) : u.id = id := by
  by_contra other
  obtain ⟨v, found, at_⟩ := written
  rw [apart.rows u.id other, TenantTable.row?_eq_some.mpr ⟨stored, rfl⟩] at found
  cases found
  exact new at_

theorem persistStep_writtenAt {steps : List ProvisionStep} :
    Keeps (WrittenAt now other) (persistStep (calmAt now id) m hash generation steps) := by
  unfold persistStep
  split
  · refine .bind (.outcome (Yields.keeps (Q := fun _ => True)
      (call_yields (fun _ _ written => written) (fun s a next before done => ⟨?_, trivial⟩)))) (fun outcome => ?_)
    · obtain ⟨f, same, table, written, rfl, each⟩ := writeManifestState_ok done
      exact before.update written (fun t => (each t).2)
    · cases outcome <;> exact .pure _
  · exact .pure _

def bareManifest (slug : String) : TenantManifest := { tenant := { slug, name := "x" } }

theorem bareManifest_valid (valid : validateSlug slug = []) : validateManifest (bareManifest slug) = [] := by
  have named : isBlank "x" = false := by decide +kernel
  simp [validateManifest, bareManifest, valid, named, TenantManifest.secretReferences]

theorem getTenant_calm (one : NamesOne s.table t) :
    getTenant (calmAt now id) first t.slug s = (.ok (some t), { s with calls := s.calls + 1 }) := by
  have ran : getTenant (calmAt now id) first t.slug s = (.ok _, { s with calls := s.calls + 1 }) := call_calm s rfl
  rw [ran, one.get _ first s _ _ rfl ran]

section
variable {u : Tenant} (one : NamesOne s.table t) (stored : u ∈ s.table.rows)
  (named : u.isNamed t.id.text = true)
include one stored named

theorem ensureTenantStep_writes :
    WrittenAt now u.id (ensureTenantStep (calmAt now id) first (bareManifest t.slug) s).2 := by
  have ensured : ensureTenantWithSource (calmAt now id) first t.slug .admin s =
      (.ok t, { s with calls := s.calls + 1 }) :=
    bind_of_ok (getTenant_calm one)
  obtain ⟨v, next, updated, written⟩ := updateNamed_writes first id { s with calls := s.calls + 1 } now
    (fun t => { t with row := { t.row with name := "x", updatedAt := now } }) (fun _ => rfl) (fun _ => rfl)
      (fun _ => rfl)
    stored named
  have returned : updateTenant (calmAt now id) first t.id.text none (some "x") none { s with calls := s.calls + 1 }
      = (.ok (some v), next) := bind_of_ok updated
  have ran : ensureTenantStep (calmAt now id) first (bareManifest t.slug) s = (.ok v, next) :=
    (bind_of_ok (mapError_of_ok ensured)).trans (bind_of_ok (mapError_of_ok returned))
  rw [ran]
  exact written

theorem provision_writes : WrittenAt now u.id
      (provision (calmAt now id) first backend (bareManifest t.slug) hash generation s).2 := by
  refine Keeps.follow (fun v => ?_) (ensureTenantStep_writes one stored named)
  refine .bind (.mapError (.pure _)) (fun domains => .bind (.mapError (fun _ written => written)) (fun owned => ?_))
  exact .bind (.mapError persistStep_writtenAt) (fun _ => .pure _)

end

theorem deactivateTenant_writes {u : Tenant} (stored : u ∈ s.table.rows) (named : u.isNamed tenantRef = true) :
    WrittenAt now u.id (deactivateTenant (calmAt now id) first tenantRef s).2 := by
  obtain ⟨v, next, updated, written⟩ := updateNamed_writes first id s now
    (fun t => { t with
      row := { t.row with status := .inactive, updatedAt := now }, deactivatedAt := t.deactivatedAt.or (some now) })
    (fun _ => rfl) (fun _ => rfl) (fun _ => rfl) stored named
  have returned : deactivateTenant (calmAt now id) first tenantRef s = (.ok (some v), next) := bind_of_ok updated
  rw [returned]
  exact written

def later (u : Tenant) : DateTime := ⟨u.row.updatedAt.timestamp + 1, u.row.updatedAt.rfc3339⟩

theorem updatedAt_ne_later (u : Tenant) : u.row.updatedAt ≠ later u := by
  intro same
  have same := congrArg DateTime.timestamp same
  dsimp only [later] at same
  omega

theorem unconfused_of_namesOne (stored : t ∈ table.rows) (one : NamesOne table t) : Unconfused table t := by
  intro u member other
  have apart : u.id ≠ t.id := fun same => other (inj_on_of_nodup_map table.ids member stored same)
  have bySlug : ¬ u.isNamed t.slug = true := fun named =>
    apart ((one.deactivate (calmAt (later u) u.id) (fun _ => 0) { table } rfl).same_of_writtenAt member
      (updatedAt_ne_later u) (deactivateTenant_writes member named))
  have byId : validateSlug t.slug = [] → ¬ u.isNamed t.id.text = true := fun valid named =>
    apart ((one.provision (calmAt (later u) u.id) (fun _ => 0) acmeBackend _ "" 0 { table } rfl
      (bareManifest_valid valid)
      rfl).same_of_writtenAt member (updatedAt_ne_later u) (provision_writes one member named))
  have bySlug : ¬ (u.row.id.text = t.slug ∨ u.slug = t.slug ∨ u.row.name = t.slug) := by
    simpa [Tenant.isNamed] using bySlug
  refine ⟨fun same => bySlug (.inl same), fun same => bySlug (.inr (.inr same)), fun valid => ?_⟩
  have byId : ¬ (u.row.id.text = t.id.text ∨ u.slug = t.id.text ∨ u.row.name = t.id.text) := by
    simpa [Tenant.isNamed] using byId valid
  exact ⟨fun same => byId (.inr (.inl same)), fun same => byId (.inr (.inr same))⟩

end

/-- A stored tenant's slug leads to it alone exactly if no other tenant goes by its slug or its id. -/
theorem names_one_iff {table : TenantTable} {t : Tenant} (stored : t ∈ table.rows) :
    NamesOne table t ↔ Unconfused table t :=
  ⟨unconfused_of_namesOne stored, namesOne_of_unconfused stored⟩

def globexId : Uuid := ⟨"5c0e6a1d-77b2-4f39-9c1e-1d2b3a4c5d6e", by decide +kernel⟩

def acme : Tenant where
  slug := "acme"
  row := { id := acmeId, name := "Acme", createdAt := ⟨0, ""⟩, updatedAt := ⟨0, ""⟩ }

def globex : Tenant where
  slug := "globex"
  row := { id := globexId, name := "acme", createdAt := ⟨0, ""⟩, updatedAt := ⟨0, ""⟩ }

def twoTenants : TenantTable where
  rows := [acme, globex]
  ids := by decide +kernel
  slugs := by decide +kernel

theorem globex_unconfused : Unconfused twoTenants globex := by
  intro u member other
  have same : u = acme := by simpa [twoTenants, other] using member
  subst same
  exact ⟨by decide +kernel, by decide +kernel, fun _ => ⟨by decide +kernel, by decide +kernel⟩⟩

theorem globex_names_one : NamesOne twoTenants globex := by
  have stored : globex ∈ twoTenants.rows := by simp [twoTenants]
  exact (names_one_iff stored).mpr globex_unconfused

theorem acme_names_two : acme ∈ twoTenants.rows ∧ ¬ NamesOne twoTenants acme := by
  have stored : acme ∈ twoTenants.rows := by simp [twoTenants]
  refine ⟨stored, fun one => ?_⟩
  obtain ⟨-, name, -⟩ := unconfused_of_namesOne stored one globex (by simp [twoTenants]) (by decide +kernel)
  exact name rfl

end Registry

end Aeterna.Tenancy
