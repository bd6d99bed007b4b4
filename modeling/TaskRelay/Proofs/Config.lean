import TaskRelay.Config
import TaskRelay.Proofs.Json.Canonical
import TaskRelay.Proofs.Shape.Optional

/-!
# The canonical form of a configuration

A configuration is put together from a map by the description of its fields, and written field by
field. Both come down to what stands under four keys: reading takes what is meant there
(`Config.Read`), writing puts there what is set (`Config.get?_canonical`), and a map is no more than
what is found in it.

> `Config.canonical_form`: what was written is read again and is what the fields write, the maps
> that are read are those with acceptable entries, and writing what was read leaves out the nulls
> and what belongs to nothing.
-/

namespace TaskRelay

/-- A whole number of a range. -/
def Json.IsWhole (least greatest : Int) (j : Json) : Prop :=
  ∃ n : Whole, j = .number (.whole n) ∧ least ≤ n.val ∧ n.val ≤ greatest

theorem Ranged.exists_toJson_iff {k : IntKind} {j : Json} :
    (∃ r : Ranged k, j = r.toJson) ↔ j.IsWhole k.least k.greatest := by
  constructor
  · rintro ⟨r, rfl⟩
    exact ⟨r.whole, rfl, r.ge_least, r.le_greatest⟩
  · rintro ⟨n, rfl, hleast, hgreatest⟩
    exact ⟨⟨n.val, hleast, hgreatest⟩, rfl⟩

namespace Config

variable {c : Config} {ms : List (String × Json)} {key : String}

/-! ## Reading -/

/-- Every field of the configuration is meant by what is found under its key. -/
structure Read (ms : List (String × Json)) (c : Config) : Prop where
  host : Means .string (Members.get? "host" ms) c.host
  port : Means Ranged.toJson (Members.get? "port" ms) c.port
  threadCount : Means Ranged.toJson (Members.get? "thread_count" ms) c.threadCount
  readySignal : Means .bool (Members.get? "ready_signal" ms) c.readySignal

/-- A map is read field by field. -/
theorem ofCanonical_eq_ok_iff (h : Members.Increasing ms) :
    ofCanonical ms = .ok c ↔ Read ms c := by
  have hcollect : ofCanonical ms = .ok c ↔ fields.collect .value ms = some c.toData := by
    refine Shape.map_ofJson_record_eq_ok_iff.trans ⟨?_, fun h => ⟨_, h, rfl⟩⟩
    rintro ⟨vs, hvs, rfl⟩
    exact hvs
  have hfields : fields.collect .value ms = some c.toData ↔
      Means .string (Members.get? "host" ms) c.host ∧
      Means Ranged.toJson (Members.get? "port" ms) c.port ∧
      Means Ranged.toJson (Members.get? "thread_count" ms) c.threadCount ∧
      Means .bool (Members.get? "ready_signal" ms) c.readySignal ∧ True :=
    (Fields.collect_option_cons_iff (fun _ _ => Shape.ofJson_text_eq_ok_iff) (fun _ => rfl)
      (by decide) h).trans <| and_congr_right' <|
    (Fields.collect_option_cons_iff (fun _ _ => Shape.ofJson_int_eq_ok_iff) (fun _ => rfl)
      (by decide) h).trans <| and_congr_right' <|
    (Fields.collect_option_cons_iff (fun _ _ => Shape.ofJson_int_eq_ok_iff) (fun _ => rfl)
      (by decide) h).trans <| and_congr_right' <|
    (Fields.collect_option_cons_iff (fun _ _ => Shape.ofJson_bool_eq_ok_iff) (fun _ => rfl)
      (by decide) h).trans <| and_congr_right' (iff_true_intro rfl)
  rw [hcollect, hfields]
  exact ⟨fun ⟨host, port, threadCount, readySignal, _⟩ => ⟨host, port, threadCount, readySignal⟩,
    fun ⟨host, port, threadCount, readySignal⟩ => ⟨host, port, threadCount, readySignal, trivial⟩⟩

/-- Whether a map is read does not depend on its nulls. -/
theorem ofCanonical_filter_iff (h : Members.Increasing ms) {keep : String × Json → Bool}
    (hkeep : ∀ m ∈ ms, keep m = false → m.2 = .null) :
    ofCanonical (ms.filter keep) = .ok c ↔ ofCanonical ms = .ok c := by
  rw [ofCanonical_eq_ok_iff (h.filter keep), ofCanonical_eq_ok_iff h]
  constructor
  · rintro ⟨hhost, hport, hthreads, hready⟩
    exact ⟨(means_filter_iff (fun _ => rfl) h hkeep).mp hhost,
      (means_filter_iff (fun _ => rfl) h hkeep).mp hport,
      (means_filter_iff (fun _ => rfl) h hkeep).mp hthreads,
      (means_filter_iff (fun _ => rfl) h hkeep).mp hready⟩
  · rintro ⟨hhost, hport, hthreads, hready⟩
    exact ⟨(means_filter_iff (fun _ => rfl) h hkeep).mpr hhost,
      (means_filter_iff (fun _ => rfl) h hkeep).mpr hport,
      (means_filter_iff (fun _ => rfl) h hkeep).mpr hthreads,
      (means_filter_iff (fun _ => rfl) h hkeep).mpr hready⟩

/-- What a map may hold to be read. -/
structure Acceptable (ms : List (String × Json)) : Prop where
  host : ∀ j, ("host", j) ∈ ms → j = .null ∨ ∃ s, j = .string s
  port : ∀ j, ("port", j) ∈ ms → j = .null ∨ j.IsWhole 0 65535
  threadCount : ∀ j, ("thread_count", j) ∈ ms → j = .null ∨ j.IsWhole 0 ((1 <<< 64) - 1)
  readySignal : ∀ j, ("ready_signal", j) ∈ ms → j = .null ∨ ∃ b, j = .bool b

/-- A map can be read if each of its entries can. -/
theorem exists_read_iff (h : Members.Increasing ms) : (∃ c, Read ms c) ↔ Acceptable ms := by
  constructor
  · rintro ⟨c, hread⟩
    -- what an integer is written as is a whole number of its range
    have hport := (exists_means_iff h).mp ⟨_, hread.port⟩
    have hthreads := (exists_means_iff h).mp ⟨_, hread.threadCount⟩
    simp only [Ranged.exists_toJson_iff] at hport hthreads
    exact ⟨(exists_means_iff h).mp ⟨_, hread.host⟩, hport, hthreads,
      (exists_means_iff h).mp ⟨_, hread.readySignal⟩⟩
  · rintro ⟨hhost, hport, hthreads, hready⟩
    obtain ⟨host, hhost⟩ := (exists_means_iff h).mpr hhost
    obtain ⟨port, hport⟩ : ∃ v : Option (Ranged .uint16), _ := (exists_means_iff h).mpr
      fun j hj => (hport j hj).imp_right Ranged.exists_toJson_iff.mpr
    obtain ⟨threads, hthreads⟩ : ∃ v : Option (Ranged .size), _ := (exists_means_iff h).mpr
      fun j hj => (hthreads j hj).imp_right Ranged.exists_toJson_iff.mpr
    obtain ⟨ready, hready⟩ := (exists_means_iff h).mpr hready
    exact ⟨⟨host, port, threads, ready⟩, hhost, hport, hthreads, hready⟩

/-! ## Writing -/

/-- An entry stands under its own name only. -/
theorem valuesOf_member {α : Type} {k : String} {toJson : α → Json} {v : Option α} :
    Members.valuesOf key (member k toJson v) = if key = k then (v.map toJson).toList else [] := by
  cases v with
  | none => simp [member, Members.valuesOf]
  | some a => by_cases h : key = k <;> simp [member, Members.valuesOf, h, Ne.symm]

theorem getLast?_toList {α : Type} (v : Option α) : v.toList.getLast? = v := by
  cases v <;> rfl

/-- What is set stands under the keys of the fields, and nothing else does. -/
theorem get?_canonical (c : Config) (key : String) :
    Members.get? key c.canonical =
      if key = "host" then c.host.map .string
      else if key = "port" then c.port.map Ranged.toJson
      else if key = "thread_count" then c.threadCount.map Ranged.toJson
      else if key = "ready_signal" then c.readySignal.map .bool
      else none := by
  rw [canonical, Members.get?_sort, members]
  simp only [Members.valuesOf_append, valuesOf_member]
  by_cases hhost : key = "host"
  · simp [hhost, getLast?_toList]
  by_cases hport : key = "port"
  · simp [hport, getLast?_toList]
  by_cases hthreads : key = "thread_count"
  · simp [hthreads, getLast?_toList]
  by_cases hready : key = "ready_signal"
  · simp [hready, getLast?_toList]
  simp [hhost, hport, hthreads, hready]

/-- A configuration is what its canonical form means. -/
theorem read_canonical (c : Config) : Read c.canonical c := by
  constructor <;> rw [get?_canonical] <;> exact means_map _

/-- A map that was read is written without the nulls and without what belongs to no field. -/
theorem Read.canonical_eq (h : Members.Increasing ms) (hread : Read ms c) :
    c.canonical = ms.filter fun m =>
      ["host", "port", "thread_count", "ready_signal"].contains m.1 && !m.2.isNull := by
  have hsorted : Members.Increasing c.canonical := Members.increasing_sort _
  -- both sides are sorted, so it is enough to look under each key
  refine hsorted.ext (h.filter _) fun key => ?_
  rw [get?_canonical, Members.get?_filter h]
  by_cases hhost : key = "host"
  · simp [hhost, ← (means_iff fun _ => rfl).mp hread.host, Json.dropNull]
  by_cases hport : key = "port"
  · simp [hport, ← (means_iff fun _ => rfl).mp hread.port, Json.dropNull]
  by_cases hthreads : key = "thread_count"
  · simp [hthreads, ← (means_iff fun _ => rfl).mp hread.threadCount, Json.dropNull]
  by_cases hready : key = "ready_signal"
  · simp [hready, ← (means_iff fun _ => rfl).mp hread.readySignal, Json.dropNull]
  cases Members.get? key ms <;> simp [Option.filter_some, hhost, hport, hthreads, hready]

/-- The fields write what is set. -/
theorem toSetMembers_toData (c : Config) : fields.toSetMembers c.toData = .ok c.members := by
  obtain ⟨host, port, threads, ready⟩ := c
  cases host <;> cases port <;> cases threads <;> cases ready <;> rfl

/-- The fields write the canonical form. -/
theorem exists_derived (c : Config) :
    ∃ v, c.derived = .ok v ∧ v.tree = .object c.canonical := by
  have hscalars : Json.canonicalMembers c.members = c.members := by
    obtain ⟨host, port, threads, ready⟩ := c
    cases host <;> cases port <;> cases threads <;> cases ready <;> rfl
  refine ⟨Value.ofJson (.object c.members), ?_, ?_⟩
  · rw [derived, toSetMembers_toData]
    rfl
  · show Json.canonical (.object c.members) = _
    rw [Json.canonical, hscalars, canonical]

/-! ## Both -/

/-- Every configuration is read from its canonical form, which is also what its fields write. Of the
maps, those are read whose entries are acceptable; what was read is written with the entries of the
map that belong to a field and are not null. -/
theorem canonical_form :
    (∀ c : Config,
      ofCanonical c.canonical = .ok c ∧ ∃ v, c.derived = .ok v ∧ v.tree = .object c.canonical) ∧
    ∀ ms : List (String × Json), Members.Increasing ms →
      ((∃ c, ofCanonical ms = .ok c) ↔ Acceptable ms) ∧
      ∀ c, ofCanonical ms = .ok c →
        c.canonical = ms.filter fun m =>
          ["host", "port", "thread_count", "ready_signal"].contains m.1 && !m.2.isNull := by
  constructor
  · intro c
    have hsorted : Members.Increasing c.canonical := Members.increasing_sort _
    exact ⟨(ofCanonical_eq_ok_iff hsorted).mpr (read_canonical c), exists_derived c⟩
  · intro ms h
    refine ⟨?_, fun c hc => ((ofCanonical_eq_ok_iff h).mp hc).canonical_eq h⟩
    simp only [ofCanonical_eq_ok_iff h]
    exact exists_read_iff h

/-- A map with a null and with an entry that belongs to nothing. -/
def strayMap : List (String × Json) :=
  [("host", .null), ("port", (⟨65535, by decide, by decide⟩ : Ranged .uint16).toJson),
    ("zone", .array [])]

/-- A map with a port that is out of range. -/
def farMap : List (String × Json) := [("port", .number (.whole ⟨65536, by decide, by decide⟩))]

theorem canonical_form_maps :
    Members.Increasing strayMap ∧ Members.Increasing farMap ∧
    (∃ c, ofCanonical strayMap = .ok c ∧
      c.canonical = [("port", (⟨65535, by decide, by decide⟩ : Ranged .uint16).toJson)]) ∧
    ¬∃ c, ofCanonical farMap = .ok c := by
  have hstray : Members.Increasing strayMap := by unfold Members.Increasing; decide
  have hfar : Members.Increasing farMap := by unfold Members.Increasing; decide
  have hport : Acceptable strayMap := by
    constructor <;> simp [strayMap, Json.IsWhole, Ranged.toJson, Ranged.whole]
  refine ⟨hstray, hfar, ?_, ?_⟩
  · obtain ⟨c, hc⟩ := (canonical_form.2 strayMap hstray).1.mpr hport
    exact ⟨c, hc, (canonical_form.2 strayMap hstray).2 c hc⟩
  · intro hread
    have := ((canonical_form.2 farMap hfar).1.mp hread).port _ (List.mem_singleton_self _)
    simp [Json.IsWhole] at this

end Config

end TaskRelay
