import Aeterna.Tenancy.CurrentManifest
import Aeterna.Tenancy.Outcomes
import Aeterna.Tenancy.Reapply

namespace Aeterna.Tenancy
open Std (ExtTreeMap)
open Lib (Eff)
open Lib.Eff List

def teamNames (orgs : List ManifestOrg) (name : String) : List String :=
  (orgs.filter (·.name = name)).flatMap (fun org => (org.teams.getD []).map (·.name))

/-- Among what the section wrote there is one organization for each of its names, and one team for each team name. -/
def KeepsEvery (orgs : List ManifestOrg) (rendered : List RenderedOrg) : Prop :=
  ∀ org ∈ orgs, ∃ o,
    rendered.filter (fun o => o.slug ∈ orgs.map (fun org => slugify org.name) ∧ o.name = org.name) = [o] ∧
    ∀ team ∈ teamNames orgs org.name, ∃ t,
      o.teams.filter (fun t => t.slug ∈ (teamNames orgs org.name).map slugify ∧ t.name = team) = [t]

structure ToldApart (orgs : List ManifestOrg) : Prop where
  organizations : ∀ a ∈ orgs, ∀ b ∈ orgs, slugify a.name = slugify b.name → a.name = b.name
  teams : ∀ org ∈ orgs, ∀ a ∈ teamNames orgs org.name, ∀ b ∈ teamNames orgs org.name, slugify a = slugify b → a = b

section
variable {V : Type} {backend : Backend} {map : BTreeMap V}

theorem entriesInOrder_perm : (entriesInOrder backend map).Perm map.toList := perm_insertionSort _ _

theorem mem_entriesInOrder {e : String × V} : e ∈ entriesInOrder backend map ↔ map[e.1]? = some e.2 :=
  entriesInOrder_perm.mem_iff.trans ExtTreeMap.mem_toList_iff_getElem?_eq_some

theorem entriesInOrder_nodup : ((entriesInOrder backend map).map Prod.fst).Nodup := by
  refine (entriesInOrder_perm.map Prod.fst).nodup_iff.mpr (pairwise_map.mpr ?_)
  refine ExtTreeMap.distinct_keys_toList.imp (fun {a b} apart same => apart ?_)
  rw [same]
  exact Std.ReflCmp.compare_self

variable {α ω : Type} {write : String → Option V → α → V} {entries : List (String × α)} {label : V → String}
  {name : α → String} {f : String × V → ω} {slug nameOf : ω → String}

structure Shows (f : String × V → ω) (slug nameOf : ω → String) (label : V → String) : Prop where
  slugs : ∀ e, slug (f e) = e.1
  names : ∀ e, nameOf (f e) = label e.2

theorem shown_iff (labels : Lib.Labels write label name) (keyed : ∀ e ∈ entries, e.1 = slugify (name e.2))
    (shown : Shows f slug nameOf label) {entry : String × α} (member : entry ∈ entries) {o : ω} :
    ((entriesInOrder backend (Lib.upsertAll write entries map)).map f).filter
        (fun o => slug o ∈ entries.map Prod.fst ∧ nameOf o = name entry.2) = [o] ↔
    ∃ row, f (entry.1, row) = o ∧ (Lib.upsertAll write entries map)[entry.1]? = some row ∧
      label row = name entry.2 := by
  have filtered : ((entriesInOrder backend (Lib.upsertAll write entries map)).map f).filter
      (fun o => slug o ∈ entries.map Prod.fst ∧ nameOf o = name entry.2) =
      ((entriesInOrder backend (Lib.upsertAll write entries map)).filter
        (fun e => e.1 ∈ entries.map Prod.fst ∧ label e.2 = name entry.2)).map f := by
    rw [filter_map]
    congr 1
    refine filter_congr (fun e _ => ?_)
    simp only [Function.comp_apply, shown.slugs, shown.names]
  have single : ∀ e, (entriesInOrder backend (Lib.upsertAll write entries map)).filter
      (fun e => e.1 ∈ entries.map Prod.fst ∧ label e.2 = name entry.2) = [e] ↔ _ :=
    fun e => labels.filter_iff keyed entriesInOrder_nodup (fun _ => mem_entriesInOrder)
  rw [filtered]
  constructor
  · intro only
    obtain ⟨e, one, shown⟩ := map_eq_singleton_iff.mp only
    obtain ⟨here, written, named⟩ := (single e).mp one
    have stored := mem_entriesInOrder.mp here
    obtain ⟨other, inside, same, labelled⟩ := labels.of_written written stored
    have own : e.1 = entry.1 := by rw [← same, keyed other inside, labelled, named, keyed entry member]
    rw [own] at stored
    exact ⟨e.2, by rw [← own]; exact shown, stored, named⟩
  · rintro ⟨row, rfl, stored, named⟩
    rw [(single (entry.1, row)).mpr ⟨mem_entriesInOrder.mpr stored, mem_map_of_mem member, named⟩]
    rfl

end

section
variable {backend : Backend} {env : Surroundings} {orgs : List ManifestOrg} {organizations : BTreeMap OrganizationRow}

theorem organizationLabels (env : Surroundings) : Lib.Labels (fun slug => OrganizationRow.write (env.newTeamId slug)
      (env.newOrganizationId slug)) OrganizationRow.name OrgInput.name :=
  fun _ _ _ => rfl

theorem teamLabels (newTeamId : String → Uuid) :
    Lib.Labels (fun slug => TeamRow.write (newTeamId slug)) TeamRow.name id :=
  fun _ _ _ => rfl

def renderOrg (backend : Backend) (org : String × OrganizationRow) : RenderedOrg :=
  ⟨org.1, org.2.name, (entriesInOrder backend org.2.teams).map (fun team => ⟨team.1, team.2.name⟩)⟩

theorem renderOrg_shows : Shows (renderOrg backend) (·.slug) (·.name) OrganizationRow.name :=
  ⟨fun _ => rfl, fun _ => rfl⟩

theorem renderTeam_shows : Shows (fun team => (⟨team.1, team.2.name⟩ : RenderedTeam)) (·.slug)
    (·.name) TeamRow.name :=
  ⟨fun _ => rfl, fun _ => rfl⟩

theorem input_keys : (orgs.map ManifestOrg.input).map Prod.fst = orgs.map (fun org => slugify org.name) := by
  rw [map_map]
  rfl

theorem input_keyed : ∀ e ∈ orgs.map ManifestOrg.input, e.1 = slugify e.2.name := by
  intro e member
  obtain ⟨org, -, rfl⟩ := mem_map.mp member
  rfl

variable {org : ManifestOrg}

theorem org_shown_iff (member : org ∈ orgs) {o : RenderedOrg} :
    ((entriesInOrder backend (upsertOrganizations env (orgs.map ManifestOrg.input) organizations)).map
      (renderOrg backend)).filter
        (fun o => o.slug ∈ orgs.map (fun org => slugify org.name) ∧ o.name = org.name) = [o] ↔
    ∃ row, renderOrg backend (slugify org.name, row) = o ∧
      (upsertOrganizations env (orgs.map ManifestOrg.input) organizations)[slugify org.name]? = some row ∧
      row.name = org.name := by
  rw [← input_keys]
  exact shown_iff (organizationLabels env) input_keyed renderOrg_shows
    (mem_map_of_mem (f := ManifestOrg.input) member)

section
variable (apart : ∀ a ∈ orgs, ∀ b ∈ orgs, slugify a.name = slugify b.name → a.name = b.name)
  (member : org ∈ orgs)
include apart member

theorem contents_of_apart : (Lib.contentsOf (orgs.map ManifestOrg.input) (slugify org.name)).flatMap (·.teams) =
      (teamNames orgs org.name).map (fun team => (slugify team, team)) := by
  have own : orgs.filter (fun o => slugify o.name = slugify org.name) = orgs.filter (·.name = org.name) := by
    refine filter_congr (fun o inside => ?_)
    exact decide_eq_decide.mpr ⟨apart o inside org member, fun same => congrArg slugify same⟩
  unfold Lib.contentsOf teamNames
  rw [filter_map, map_map, flatMap_map, map_flatMap]
  show flatMap _ (orgs.filter (fun o => slugify o.name = slugify org.name)) = _
  rw [own]
  refine flatMap_congr (fun o _ => ?_)
  rw [map_map]
  rfl

theorem teams_of_apart {row : OrganizationRow}
    (stored : (upsertOrganizations env (orgs.map ManifestOrg.input) organizations)[slugify org.name]? = some row) :
    row.teams = Lib.upsertAll (fun slug => TeamRow.write (env.newTeamId (slugify org.name) slug))
      ((teamNames orgs org.name).map (fun team => (slugify team, team)))
      ((organizations[slugify org.name]?.map (·.teams)).getD ∅) := by
  have written := stored
  unfold upsertOrganizations at written
  rw [Lib.upsertAll_getElem?] at written
  have teams := organization_teams (env.newTeamId (slugify org.name)) (env.newOrganizationId (slugify org.name))
    (Lib.contentsOf (orgs.map ManifestOrg.input) (slugify org.name)) organizations[slugify org.name]?
  rw [written, contents_of_apart apart member] at teams
  exact teams

end

theorem teams_shown_iff {names : List String} {newTeamId : String → Uuid} {teams : BTreeMap TeamRow} :
    (∀ team ∈ names, ∃ t, ((entriesInOrder backend (Lib.upsertAll (fun slug => TeamRow.write (newTeamId slug))
        (names.map (fun team => (slugify team, team))) teams)).map
          (fun team => (⟨team.1, team.2.name⟩ : RenderedTeam))).filter
        (fun t => t.slug ∈ names.map slugify ∧ t.name = team) = [t]) ↔
    ∀ a ∈ names, ∀ b ∈ names, slugify a = slugify b → a = b := by
  have keys : names.map slugify = (names.map (fun team => (slugify team, team))).map Prod.fst := by
    rw [map_map]
    rfl
  have labels := (teamLabels newTeamId).kept_iff (names.map (fun team => (slugify team, team))) teams
  simp only [forall_mem_map, id] at labels
  rw [← labels, keys]
  refine forall_congr' (fun team => forall_congr' (fun member => ?_))
  have listed : (slugify team, team) ∈ names.map (fun team => (slugify team, team)) := mem_map_of_mem member
  have keyed : ∀ e ∈ names.map (fun team => (slugify team, team)), e.1 = slugify (id e.2) := by simp
  constructor
  · rintro ⟨t, one⟩
    obtain ⟨row, -, stored, named⟩ := (shown_iff (teamLabels newTeamId) keyed renderTeam_shows listed).mp one
    rw [stored]
    exact congrArg some named
  · intro labelled
    obtain ⟨row, stored, named⟩ := Option.map_eq_some_iff.mp labelled
    exact ⟨_, (shown_iff (teamLabels newTeamId) keyed renderTeam_shows listed).mpr ⟨row, rfl, stored, named⟩⟩

theorem keepsEvery_iff : KeepsEvery orgs
      ((entriesInOrder backend (upsertOrganizations env (orgs.map ManifestOrg.input) organizations)).map
        (renderOrg backend)) ↔
    ToldApart orgs := by
  have labels := (organizationLabels env).kept_iff (orgs.map ManifestOrg.input) organizations
  simp only [forall_mem_map] at labels
  constructor
  · intro kept
    have apart : ∀ a ∈ orgs, ∀ b ∈ orgs, slugify a.name = slugify b.name → a.name = b.name := by
      refine labels.mp (fun org member => ?_)
      obtain ⟨o, one, -⟩ := kept org member
      obtain ⟨row, -, stored, named⟩ := (org_shown_iff member).mp one
      exact Option.map_eq_some_iff.mpr ⟨row, stored, named⟩
    refine ⟨apart, fun org member => ?_⟩
    obtain ⟨o, one, teams⟩ := kept org member
    obtain ⟨row, rfl, stored, -⟩ := (org_shown_iff member).mp one
    rw [renderOrg, teams_of_apart apart member stored] at teams
    exact teams_shown_iff.mp teams
  · intro told org member
    obtain ⟨row, stored, named⟩ := Option.map_eq_some_iff.mp (labels.mpr told.organizations org member)
    refine ⟨_, (org_shown_iff member).mpr ⟨row, rfl, stored, named⟩, ?_⟩
    rw [renderOrg, teams_of_apart told.organizations member stored]
    exact teams_shown_iff.mpr (told.teams org member)

end

/-- The hierarchy section of a manifest, written and read back. -/
def applyHierarchy (backend : Backend) (env : Surroundings) (orgs : List ManifestOrg) :
    Eff Session PostgresError (List RenderedOrg) := do
  let _ ← upsertHierarchy env (orgs.map ManifestOrg.input)
  getHierarchy backend env

/-- Every unit of a section is read back exactly if the slugs tell them apart, whatever was stored before. -/
theorem hierarchy_kept_iff {backend : Backend} {env : Surroundings} {orgs : List ManifestOrg} {s next : Session}
    {rendered : List RenderedOrg} (read : applyHierarchy backend env orgs s = (.ok rendered, next)) :
    KeepsEvery orgs rendered ↔ ToldApart orgs := by
  obtain ⟨summary, between, wrote, read⟩ := bind_ok read
  obtain ⟨space, written, same⟩ := storeCall_ok wrote
  obtain ⟨after, found, -⟩ := storeCall_ok read
  cases written
  cases found
  rw [same]
  exact keepsEvery_iff

theorem applyHierarchy_calm (backend : Backend) (s : Session) (orgs : List ManifestOrg) : ∃ next,
    applyHierarchy backend acmeAround orgs s = (.ok ((entriesInOrder backend
      (upsertOrganizations acmeAround (orgs.map ManifestOrg.input) s.space.parts.organizations)).map
        (renderOrg backend)), next) :=
  ⟨_, (bind_of_ok (storeCall_calm (fun _ => rfl) rfl)).trans (storeCall_calm (fun _ => rfl) rfl)⟩

def platformManifest (teams : List String) : TenantManifest where
  tenant := { slug := "acme", name := "Acme" }
  hierarchy := some [{ name := "Platform", teams := some (teams.map (fun team => { name := team })) }]

theorem platform_told_apart : ToldApart ((platformManifest ["Search", "Ranking"]).hierarchy.getD []) := by
  have names : teamNames ((platformManifest ["Search", "Ranking"]).hierarchy.getD []) "Platform" =
      ["Search", "Ranking"] := by
    decide +kernel
  constructor
  · intro a first b second _
    rw [mem_singleton.mp first, mem_singleton.mp second]
  · intro org member
    obtain rfl := mem_singleton.mp member
    rw [names]
    decide +kernel

theorem platform_kept : ∃ rendered,
    (applyHierarchy acmeBackend acmeAround ((platformManifest ["Search", "Ranking"]).hierarchy.getD []) ⟨{}, 0⟩).1 =
      .ok rendered ∧
    KeepsEvery ((platformManifest ["Search", "Ranking"]).hierarchy.getD []) rendered := by
  obtain ⟨next, ran⟩ := applyHierarchy_calm acmeBackend ⟨{}, 0⟩
      ((platformManifest ["Search", "Ranking"]).hierarchy.getD [])
  exact ⟨_, congrArg Prod.fst ran, (hierarchy_kept_iff ran).mpr platform_told_apart⟩

/-- Two teams of one slug: the second takes the row of the first. -/
theorem platform_loses_a_team : validateManifest (platformManifest ["Data Science", "data-science"]) = [] ∧
    ∃ rendered,
    (applyHierarchy acmeBackend acmeAround
      ((platformManifest ["Data Science", "data-science"]).hierarchy.getD []) ⟨{}, 0⟩).1 = .ok rendered ∧
    ¬ KeepsEvery ((platformManifest ["Data Science", "data-science"]).hierarchy.getD []) rendered := by
  refine ⟨by decide +kernel, ?_⟩
  obtain ⟨next, ran⟩ := applyHierarchy_calm acmeBackend ⟨{}, 0⟩
    ((platformManifest ["Data Science", "data-science"]).hierarchy.getD [])
  refine ⟨_, congrArg Prod.fst ran, fun kept => ?_⟩
  have told := (keepsEvery_iff.mp kept).teams _ (mem_singleton_self _) "Data Science"
      (by decide +kernel) "data-science"
    (by decide +kernel) (by decide +kernel)
  exact absurd told (by decide)

end Aeterna.Tenancy
