import FabricFootprint.Document.ServiceFile
import FabricFootprint.Json.Writer
import FabricFootprint.Proofs.Document.Services
import FabricFootprint.Proofs.Json.RoundTrip
import FabricFootprint.Proofs.Json.Scalar

/-!
FabricFootprint.Proofs.Document.ServiceFiles — service definitions, written and read back.

`definition_read_back` — a definition whose values are finite is given back by every format
that gives back finite values, and by JSON texts when the numerals of its numbers are read
exactly; the older names of members may be used in any rules.
-/

namespace FabricFootprint

/-- Service definitions survive being written and read. A definition without NaNs and
infinities is given back by every format that gives back finite values; JSON texts do
so, in either form, when the numerals that its numbers are written as are read as these
numbers. The members of its rules may be written under their older names, any of them
in any of the rules. -/
theorem definition_read_back {definition : ServiceDefinition}
    (hfinite : ∀ v ∈ definition.values, v.isFinite = true) {tree : Node Datum}
    (htree : tree = definition.encode ∨ ∃ older, tree = definition.encodeSpelled older) :
    (∀ (σ : Type) [Scalar σ] (write : Datum → σ), Rereads write (fun v => v.isFinite = true) →
      ServiceDefinition.decode? (tree.map write) = some definition) ∧
    ((∀ x, Value.float x ∈ definition.values → x.IsReread) →
      ∀ text ∈ [Json.pretty, Json.compact],
        ServiceDefinition.ofJson? (text (Json.ofData tree)) = some definition) := by
  obtain ⟨older, rfl⟩ : ∃ older, tree = definition.encodeSpelled older :=
    htree.elim (fun heq => ⟨_, heq.trans definition.encodeSpelled_none.symm⟩) id
  refine ⟨fun σ _ write hwrite => ?_, fun hnumbers text htext => ?_⟩
  · exact ServiceDefinition.decode?_encodeSpelled hwrite hfinite older
  · rw [ServiceDefinition.ofJson?, Json.read_written htext]
    exact ServiceDefinition.decode?_encodeSpelled JsonScalar.rereads_ofDatum
      (JsonScalar.givesBack_of_floats hfinite hnumbers) older

/-- The first rule has a filter without a name and a key, and four older names; the
second one has all of its five members under their present names. The components expect a
value of every kind. -/
theorem definition_read_back_tenant :
    let first : Rule := { (default : Rule) with
      chunk := "groups", sourceName := "tenant", sourceType := some .string, destName := "id"
      destType := some .integer, linkage := .direct, matchType := .full
      filter := some ⟨"", ""⟩ }
    let second : Rule := { (default : Rule) with
      chunk := "ports", sourceName := "vlan", linkage := .indirect
      matchType := .containment }
    let definition : ServiceDefinition :=
      { name := "epg"
        chunks := [⟨"groups", ["/groups/*"]⟩]
        rules := [first, second]
        components := [⟨"routed", [⟨"vrf", .null, .notEqual⟩, ⟨"mtu", .int 9000, .equal⟩,
          ⟨"bandwidth", .float ⟨4666292438787162112⟩, .equal⟩, ⟨"up", .bool true, .equal⟩,
          ⟨"gateway", .str "", .subkey⟩]⟩]
        catalog := ⟨"", [⟨"l3", FieldMap.ofList [("routed", true)]⟩]⟩ }
    let older (position : Nat) (member : String) : Bool :=
      position == 0 && member != "KeyDestName"
    let tree := definition.encodeSpelled older
    (first.members.map fun m => Rule.spell (older 0) m.1) =
        ["ChunkName", "KeySName", "KeySType", "KeyDestName", "KeyDType", "KeyLink",
          "MatchType", "CommonKeysList", "CommonKeysListPrefix", "Filter", "SplitSearch"] ∧
      (second.members.map fun m => Rule.spell (older 1) m.1) =
        ["ChunkName", "KeySourceName", "KeyDestName", "Linkage", "MatchType",
          "CommonKeysList", "CommonKeysListPrefix", "SplitSearch"] ∧
      (∀ v ∈ definition.values, v.isFinite = true) ∧
      ServiceDefinition.decode? (tree.map fun d => d) = some definition ∧
      ServiceDefinition.ofJson? (Json.ofData tree).pretty = some definition ∧
      ServiceDefinition.ofJson? (Json.ofData definition.encode).compact =
        some definition := by
  intro first second definition older tree
  have finite : ∀ v ∈ definition.values, v.isFinite = true := by decide
  have numbers : ∀ x, Value.float x ∈ definition.values → x.IsReread := by
    have written : ∀ v ∈ definition.values, (JsonScalar.ofValue v).value? = some v := by
      decide +kernel
    exact fun x hx => (JsonScalar.givesBack_float_iff (finite _ hx)).1 (written _ hx)
  obtain ⟨trees, texts⟩ := definition_read_back finite (.inr ⟨older, rfl⟩)
  have present := (definition_read_back finite (.inl rfl)).2 numbers
  exact ⟨rfl, rfl, finite, trees Datum (fun d => d) (rereads_datum _),
    texts numbers Json.pretty List.mem_cons_self, present Json.compact (by simp)⟩

end FabricFootprint
