import SchemaPress.Proofs.Model.Properties
import SchemaPress.Proofs.Session
import SchemaPress.Proofs.TypeScript.Interface
import SchemaPress.Proofs.Yup.Validator
import SchemaPress.TypeScript.Interface
import SchemaPress.Yup.Validator

/-!
# Interfaces and validators agree

The two renderers write the same model in two ways.  Read back, both texts declare the same keys in
the same order, each key once, and if regard is to be had to what is required, they agree on which
properties may be left out, whatever else has been chosen (`renderers_agree`).
-/

namespace SchemaPress

open TypeScript (Declared InterfaceOption propertyName)
open Yup (ValidatorOption)

/-! ### Choices -/

theorem TypeScript.optionalMarkers_styleFor_true (options : List InterfaceOption) :
    (styleFor options true).optionalMarkers = true := by
  rw [styleFor, if_pos rfl, InterfaceStyle.ofOptions, List.foldl_append]
  rfl

theorem TypeScript.optionalMarkers_styleFor_false {options : List InterfaceOption}
    (h : ∀ enabled, .optionalMarkers enabled ∉ options) :
    (styleFor options false).optionalMarkers = false := by
  rw [styleFor, if_neg Bool.false_ne_true, List.append_nil, InterfaceStyle.ofOptions]
  refine List.foldlRecOn (motive := fun style => style.optionalMarkers = false)
    options InterfaceStyle.choose (b := {}) rfl ?_
  intro style hstyle o ho
  cases o with
  | optionalMarkers enabled => exact absurd ho (h enabled)
  | comments enabled => exact hstyle

theorem Yup.honorRequired_styleFor_true (options : List ValidatorOption) :
    (styleFor options true).honorRequired = true := by
  rw [styleFor, if_pos rfl, ValidatorStyle.ofOptions, List.foldl_append]
  rfl

theorem Yup.honorRequired_styleFor_false {options : List ValidatorOption}
    (h : ∀ enabled, .honorRequired enabled ∉ options) :
    (styleFor options false).honorRequired = false := by
  rw [styleFor, if_neg Bool.false_ne_true, List.append_nil, ValidatorStyle.ofOptions]
  refine List.foldlRecOn (motive := fun style => style.honorRequired = false)
    options ValidatorStyle.choose (b := {}) rfl ?_
  intro style hstyle o ho
  cases o with
  | honorRequired enabled => exact absurd ho (h enabled)
  | library name =>
    unfold ValidatorStyle.choose
    dsimp only
    split <;> exact hstyle

/-- `styleFor` keeps the library of the options. -/
theorem Yup.library_styleFor (options : List ValidatorOption) (honorRequired : Bool) :
    (styleFor options honorRequired).library = (ValidatorStyle.ofOptions options).library := by
  cases honorRequired with
  | false => rw [styleFor, if_neg Bool.false_ne_true, List.append_nil]
  | true =>
    rw [styleFor, if_pos rfl, ValidatorStyle.ofOptions, List.foldl_append]
    rfl

/-! ### Rendering -/

/-- The result of `r.render` in `s`. -/
def Renderer.output (r : Renderer) (honorRequired : Bool) (m : Model) (s : Session) :
    Except Error String :=
  ((r.render honorRequired m).run.run s).1

/-- A `checkpoint` in `s` succeeds. -/
def Session.IsLive (s : Session) : Prop :=
  s.passes ≠ some 0

instance (s : Session) : Decidable s.IsLive :=
  inferInstanceAs (Decidable (s.passes ≠ some 0))

theorem Job.run_checkpoint_of_isLive {s : Session} (h : s.IsLive) :
    ∃ s', checkpoint.run.run s = (.ok (), s') := by
  rw [run_checkpoint]
  split
  case _ => exact ⟨s, rfl⟩
  case _ hpasses => exact absurd hpasses h
  case _ n _ => exact ⟨{ s with passes := some n }, rfl⟩

theorem TypeScript.output_renderer (options : List InterfaceOption) (honorRequired : Bool)
    (m : Model) {s : Session} (h : s.IsLive) :
    (renderer options).output honorRequired m s =
      .ok (interface (styleFor options honorRequired) m ++ "\n") := by
  obtain ⟨s', hs'⟩ := Job.run_checkpoint_of_isLive h
  unfold Renderer.output renderer
  dsimp only
  rw [Job.run_bind, hs']
  rfl

theorem Yup.output_renderer (options : List ValidatorOption) (honorRequired : Bool)
    (m : Model) {s : Session} (h : s.IsLive) :
    (renderer options).output honorRequired m s =
      .ok (validator (styleFor options honorRequired) m) := by
  obtain ⟨s', hs'⟩ := Job.run_checkpoint_of_isLive h
  unfold Renderer.output renderer
  dsimp only
  rw [Job.run_bind, hs']
  rfl

/-! ### Agreement -/

/-- Both renderers succeed on `m`, the one in `s` and the other in `s'`, and `readInterface` and
`readValidator` read `members` and `entries` from their texts. -/
structure Rendered (interfaceOptions : List InterfaceOption)
    (validatorOptions : List ValidatorOption) (honorRequired : Bool) (m : Model) (s s' : Session)
    (members entries : List Declared) : Prop where
  interface : ∃ text, (TypeScript.renderer interfaceOptions).output honorRequired m s = .ok text ∧
    TypeScript.readInterface m.name text = some members
  validator : ∃ text, (Yup.renderer validatorOptions).output honorRequired m s' = .ok text ∧
    Yup.readValidator m.name (Yup.ValidatorStyle.ofOptions validatorOptions).library text =
      some entries

/-- The keys of `members` and of `entries` are the `propertyName`s of `m`, in order, and they are
distinct. -/
structure SameKeys (m : Model) (members entries : List Declared) : Prop where
  in_order : members.map (·.key) = m.properties.toList.map fun p => propertyName p.name
  same : entries.map (·.key) = members.map (·.key)
  distinct : (members.map (·.key)).Nodup

variable {name : String} {metadata : Metadata} {properties : List Property} {m : Model}
  {s s' : Session}

theorem rendered_declared (interfaceOptions : List InterfaceOption)
    (validatorOptions : List ValidatorOption) (honorRequired : Bool) (m : Model) (hs : s.IsLive)
    (hs' : s'.IsLive) :
    Rendered interfaceOptions validatorOptions honorRequired m s s'
      (m.properties.toList.map
        (TypeScript.declared (TypeScript.styleFor interfaceOptions honorRequired)))
      (m.properties.toList.map
        (Yup.declared (Yup.styleFor validatorOptions honorRequired))) where
  interface := ⟨_, TypeScript.output_renderer interfaceOptions honorRequired m hs,
    TypeScript.readInterface_interface _ m⟩
  validator := by
    refine ⟨_, Yup.output_renderer validatorOptions honorRequired m hs', ?_⟩
    rw [← Yup.library_styleFor validatorOptions honorRequired]
    exact Yup.readValidator_validator _ m

/-- The `propertyName`s of a model that was built are distinct. -/
theorem nodup_keys (hm : Model.build name metadata properties = .ok m) :
    (m.properties.toList.map fun p => propertyName p.name).Nodup := by
  have hproperties : m.properties = .ofList properties := by
    unfold Model.build at hm
    split at hm
    · cases hm
    · cases hm
      rfl
  have hnames := (Properties.indexed_ofList properties).names_nodup
  rw [hproperties, ← Function.comp_def propertyName Property.name, ← List.map_map]
  exact hnames.map TypeScript.propertyName_injective

theorem sameKeys_declared (hm : Model.build name metadata properties = .ok m)
    (style : TypeScript.InterfaceStyle) (style' : Yup.ValidatorStyle) :
    SameKeys m (m.properties.toList.map (TypeScript.declared style))
      (m.properties.toList.map (Yup.declared style')) := by
  have hmembers : (m.properties.toList.map (TypeScript.declared style)).map (·.key) =
      m.properties.toList.map fun p => propertyName p.name := by
    rw [List.map_map]
    rfl
  refine ⟨hmembers, ?_, ?_⟩
  · rw [hmembers, List.map_map]
    rfl
  · rw [hmembers]
    exact nodup_keys hm

/-- **The renderers agree on every model.**  On a model that was built, both succeed, with
`SameKeys`.  With `honorRequired`, a member is marked if and only if the chain of its entry is
optional, and if and only if its property is not required, whatever the options.  Without it, and
with no option that sets it, no member is marked and no chain is optional.  No two names have the
same `propertyName`. -/
theorem renderers_agree (hm : Model.build name metadata properties = .ok m)
    (interfaceOptions : List InterfaceOption) (validatorOptions : List ValidatorOption)
    (hs : s.IsLive) (hs' : s'.IsLive) :
    Function.Injective propertyName ∧
    (∃ members entries,
      Rendered interfaceOptions validatorOptions true m s s' members entries ∧
      SameKeys m members entries ∧
      ∀ (i : Nat) (p : Property), m.properties.toList[i]? = some p →
        ∃ a b, members[i]? = some a ∧ entries[i]? = some b ∧
          (a.optional = true ↔ b.optional = true) ∧ (b.optional = true ↔ p.required = false)) ∧
    ((∀ enabled, .optionalMarkers enabled ∉ interfaceOptions) →
      (∀ enabled, .honorRequired enabled ∉ validatorOptions) →
      ∃ members entries,
        Rendered interfaceOptions validatorOptions false m s s' members entries ∧
        SameKeys m members entries ∧
        (∀ a ∈ members, a.optional = false) ∧ ∀ b ∈ entries, b.optional = false) := by
  refine ⟨TypeScript.propertyName_injective, ?_, fun hmarkers hhonor => ?_⟩
  -- The choice that comes last decides, and it is the same for both.
  · refine ⟨_, _, rendered_declared interfaceOptions validatorOptions true m hs hs',
      sameKeys_declared hm _ _, fun i p hp => ?_⟩
    rw [List.getElem?_map, List.getElem?_map, hp]
    refine ⟨_, _, rfl, rfl, ?_⟩
    simp only [TypeScript.declared, Yup.declared, TypeScript.optionalMarkers_styleFor_true,
      Yup.honorRequired_styleFor_true, Bool.true_and, Bool.not_eq_true', iff_self, and_self]
  · refine ⟨_, _, rendered_declared interfaceOptions validatorOptions false m hs hs',
      sameKeys_declared hm _ _, ?_, ?_⟩
    · intro a ha
      obtain ⟨p, -, rfl⟩ := List.mem_map.1 ha
      rw [TypeScript.declared, TypeScript.optionalMarkers_styleFor_false hmarkers, Bool.false_and]
    · intro b hb
      obtain ⟨p, -, rfl⟩ := List.mem_map.1 hb
      rw [Yup.declared, Yup.honorRequired_styleFor_false hhonor, Bool.false_and]

/-- Three properties, with the names `id`, the empty one, and one with a quote. -/
def oddProperties : List Property :=
  [{ name := "id", type := .number, required := true }, { name := "", required := true },
    { name := "\"?: ", type := .string, constraints := { description := "not the end */ yet" } }]

/-- The model of `oddProperties`. -/
def oddModel : Model where
  name := "Pet"
  properties := .ofList oddProperties

theorem renderers_agree_oddModel :
    (∃ members entries,
      Rendered [.comments true, .optionalMarkers false] [.library " Y ", .honorRequired false] true
        oddModel {} { passes := some 1 } members entries ∧
      SameKeys oddModel members entries ∧
      ∃ a b, members[2]? = some a ∧ entries[2]? = some b ∧ a.optional = true ∧
        b.optional = true) ∧
    ∃ members entries,
      Rendered [.comments true] [.library " Y "] false oddModel {} {} members entries ∧
      SameKeys oddModel members entries ∧
      (∀ a ∈ members, a.optional = false) ∧ ∀ b ∈ entries, b.optional = false := by
  have hbuild : Model.build "Pet" {} oddProperties = .ok oddModel := by
    rw [Model.build, if_neg (by decide +kernel)]
    rfl
  have hlive : Session.IsLive {} := by decide
  obtain ⟨-, ⟨members, entries, hrendered, hkeys, hoptional⟩, -⟩ :=
    renderers_agree hbuild [.comments true, .optionalMarkers false]
      [.library " Y ", .honorRequired false] hlive
      (show Session.IsLive { passes := some 1 } by decide)
  have hlist : oddModel.properties.toList = oddProperties :=
    Properties.toList_ofList (by decide)
  rw [hlist] at hoptional
  obtain ⟨a, b, ha, hb, hab, hrequired⟩ := hoptional 2 _ rfl
  obtain ⟨-, -, hplain⟩ := renderers_agree hbuild [.comments true] [.library " Y "] hlive hlive
  refine ⟨⟨members, entries, hrendered, hkeys, a, b, ha, hb, ?_, ?_⟩, hplain ?_ ?_⟩
  · exact hab.2 (hrequired.2 rfl)
  · exact hrequired.2 rfl
  · intro enabled
    simp
  · intro enabled
    simp

end SchemaPress
