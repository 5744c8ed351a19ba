/-
# Analysis.SnapshotShape -- what a loaded snapshot holds

The arrays of a loaded snapshot are whole records with every field that is read
(`loadSnapshot_shaped`), and it holds the first records of the snapshot as it would be
loaded without limits (`loadSnapshot_kept`).
-/
import Reb.Analysis.Snapshot
import Reb.Analysis.SnapshotKept

namespace Reb.Analysis.Snapshot

set_option autoImplicit false

/-! ## Layouts -/

theorem fieldIndex_lt {fields : List (List UInt8)} {name : List UInt8} {index : Nat}
    (found : fieldIndex fields name = some index) : index < fields.length :=
  (List.findIdx?_eq_some_iff_findIdx_eq.1 found).1

/-- The fields that are read are in their records, and the arrays are whole records. -/
structure SnapshotLayout.Fits (layout : SnapshotLayout) (data : SnapshotData) : Prop where
  nodeWidth : layout.nodeWidth = data.nodeFields.length
  edgeWidth : layout.edgeWidth = data.edgeFields.length
  typeField : layout.nodeTypeField < layout.nodeWidth
  nameField : layout.nodeNameField < layout.nodeWidth
  idField : layout.nodeIdField < layout.nodeWidth
  sizeField : layout.nodeSizeField < layout.nodeWidth
  edgeCountField : layout.nodeEdgeCountField < layout.nodeWidth
  edgeTypeField : layout.edgeTypeField < layout.edgeWidth
  edgeNameField : layout.edgeNameField < layout.edgeWidth
  edgeTargetField : layout.edgeTargetField < layout.edgeWidth
  nodesAligned : data.nodeValuesSeen % layout.nodeWidth = 0
  edgesAligned : data.edgeValuesSeen % layout.edgeWidth = 0
  storedNodes : layout.storedNodes = data.nodes.length / layout.nodeWidth
  storedEdges : layout.storedEdges = data.edges.length / layout.edgeWidth

theorem snapshotLayout_fits {data : SnapshotData} {layout : SnapshotLayout}
    (laid : snapshotLayout data = some layout) : layout.Fits data := by
  unfold snapshotLayout at laid
  simp only [Option.bind_eq_bind, Option.bind_eq_some_iff] at laid
  obtain ⟨_, type, _, name, _, id, _, size, _, count, _, edgeType, _, edgeName, _, target, laid⟩ := laid
  split_ifs at laid with wrong
  cases laid
  simp only [not_or, not_not] at wrong
  exact {
    nodeWidth := rfl
    edgeWidth := rfl
    typeField := fieldIndex_lt type
    nameField := fieldIndex_lt name
    idField := fieldIndex_lt id
    sizeField := fieldIndex_lt size
    edgeCountField := fieldIndex_lt count
    edgeTypeField := fieldIndex_lt edgeType
    edgeNameField := fieldIndex_lt edgeName
    edgeTargetField := fieldIndex_lt target
    nodesAligned := wrong.2.2.1
    edgesAligned := wrong.2.2.2
    storedNodes := rfl
    storedEdges := rfl }

/-- Only the numbers of the stored records depend on what is kept. -/
theorem snapshotLayout_kept {limits : Limits} {cut whole : SnapshotData}
    (kept : SnapshotData.KeptOf limits cut whole) :
    snapshotLayout cut = (snapshotLayout whole).map fun layout =>
      { layout with
        storedNodes := cut.nodes.length / layout.nodeWidth
        storedEdges := cut.edges.length / layout.edgeWidth } := by
  obtain ⟨nodeFields, edgeFields, nodeTypes, edgeTypes, -⟩ := kept.fields
  have nodesSeen : cut.nodeValuesSeen = whole.nodeValuesSeen := kept.nodes.seen.trans kept.nodes.all.symm
  have edgesSeen : cut.edgeValuesSeen = whole.edgeValuesSeen := kept.edges.seen.trans kept.edges.all.symm
  unfold snapshotLayout
  rw [nodeFields, edgeFields, nodeTypes, edgeTypes, nodesSeen, edgesSeen]
  simp only [Option.bind_eq_bind, Option.map_bind, Function.comp_def, apply_ite (Option.map _),
    Option.map_none, Option.map_some]

/-! ## Snapshots -/

theorem SnapshotLayout.Fits.wide {layout : SnapshotLayout} {data : SnapshotData} (fits : layout.Fits data) :
    0 < layout.nodeWidth ∧ 0 < layout.edgeWidth :=
  ⟨Nat.zero_lt_of_lt fits.typeField, Nat.zero_lt_of_lt fits.edgeTypeField⟩

/-- A snapshot whose arrays are whole records. -/
structure Loaded.Shaped (s : Loaded) : Prop where
  fits : s.layout.Fits s.data
  nodes : s.data.nodes.length = s.layout.storedNodes * s.layout.nodeWidth
  edges : s.data.edges.length = s.layout.storedEdges * s.layout.edgeWidth

/-- A snapshot of which everything is stored. -/
structure Loaded.Whole (s : Loaded) : Prop extends s.Shaped where
  totalNodes : s.stats.totalNodes = s.layout.storedNodes
  totalEdges : s.stats.totalEdges = s.layout.storedEdges
  complete : s.data.nodeValuesTruncated = false ∧ s.data.edgeValuesTruncated = false

/-- What is kept of a snapshot: the first records. -/
structure Loaded.KeptOf (limits : Limits) (cut whole : Loaded) : Prop where
  data : SnapshotData.KeptOf limits cut.data whole.data
  layout : cut.layout = { whole.layout with
    storedNodes := min (limits.nodeRecords whole.layout.nodeWidth) whole.layout.storedNodes
    storedEdges := min (limits.edgeRecords whole.layout.edgeWidth) whole.layout.storedEdges }
  stats : cut.stats = { whole.stats with
    nodeLimitReached := decide (limits.nodeRecords whole.layout.nodeWidth < whole.layout.storedNodes)
    edgeLimitReached := decide (limits.edgeRecords whole.layout.edgeWidth < whole.layout.storedEdges)
    stringLimitReached := cut.data.stringsTruncated }

/-- Values that are cut at a number of records. -/
theorem cut_records {width records stored : Nat} (wide : 0 < width) {cut whole : Values}
    (kept : Values.KeptOf (width * records) cut whole) (aligned : whole.kept.length = stored * width) :
    cut.kept.length = min records stored * width ∧ cut.truncated = decide (records < stored) := by
  constructor
  · rw [kept.kept, List.length_take, aligned, Nat.mul_comm width, Nat.mul_min_mul_right]
  · rw [kept.truncated, decide_eq_decide, aligned, Nat.mul_comm width]
    exact Nat.mul_lt_mul_right wide

theorem loadSnapshot_kept (limits : Limits) (document : List UInt8) :
    (∃ failure, loadSnapshot limits document = .error failure
        ∧ loadSnapshot (.none document.length) document = .error failure)
      ∨ ∃ cut whole, loadSnapshot limits document = .ok cut
        ∧ loadSnapshot (.none document.length) document = .ok whole
        ∧ cut.Shaped ∧ whole.Whole ∧ cut.KeptOf limits whole := by
  unfold loadSnapshot
  split_ifs with file
  · exact .inl ⟨_, rfl, rfl⟩
  obtain ⟨none, none'⟩ | ⟨cut, whole, some, some', kept⟩ := rel_cases (parse_kept limits document)
  · rw [none, none']
    exact .inl ⟨_, rfl, rfl⟩
  rw [some, some']
  simp only [snapshotLayout_kept kept]
  cases laid : snapshotLayout whole with
  | none => exact .inl ⟨_, rfl, rfl⟩
  | some layout =>
      simp only [Option.map_some]
      obtain ⟨-, -, -, -, declaredNodes, declaredEdges⟩ := kept.fields
      have nodesSeen : cut.nodeValuesSeen = whole.nodeValuesSeen :=
        kept.nodes.seen.trans kept.nodes.all.symm
      have edgesSeen : cut.edgeValuesSeen = whole.edgeValuesSeen :=
        kept.edges.seen.trans kept.edges.all.symm
      simp only [declaredNodes, declaredEdges, nodesSeen, edgesSeen]
      split_ifs with counts
      · exact .inl ⟨_, rfl, rfl⟩
      · right
        simp only [not_or, not_not] at counts
        have fits := snapshotLayout_fits laid
        have laidCut := snapshotLayout_kept kept
        rw [laid, Option.map_some] at laidCut
        have fitsCut := snapshotLayout_fits laidCut
        obtain ⟨wideNode, wideEdge⟩ := fits.wide
        have nodes : whole.nodes.length = layout.storedNodes * layout.nodeWidth := by
          have all : whole.nodeValuesSeen = whole.nodes.length := kept.nodes.all
          rw [fits.storedNodes, ← all, Nat.div_mul_cancel (Nat.dvd_of_mod_eq_zero fits.nodesAligned)]
        have edges : whole.edges.length = layout.storedEdges * layout.edgeWidth := by
          have all : whole.edgeValuesSeen = whole.edges.length := kept.edges.all
          rw [fits.storedEdges, ← all, Nat.div_mul_cancel (Nat.dvd_of_mod_eq_zero fits.edgesAligned)]
        have keptNodes := kept.nodes
        have keptEdges := kept.edges
        rw [← fits.nodeWidth] at keptNodes
        rw [← fits.edgeWidth] at keptEdges
        obtain ⟨cutNodes, nodesCut⟩ := cut_records wideNode keptNodes nodes
        obtain ⟨cutEdges, edgesCut⟩ := cut_records wideEdge keptEdges edges
        have storedNodes : cut.nodes.length / layout.nodeWidth
            = min (limits.nodeRecords layout.nodeWidth) layout.storedNodes :=
          Nat.div_eq_of_eq_mul_left wideNode cutNodes
        have storedEdges : cut.edges.length / layout.edgeWidth
            = min (limits.edgeRecords layout.edgeWidth) layout.storedEdges :=
          Nat.div_eq_of_eq_mul_left wideEdge cutEdges
        refine ⟨_, _, rfl, rfl, ?_, ?_, ?_⟩
        · exact {
            fits := fitsCut
            nodes := by
              simp only [storedNodes]
              exact cutNodes
            edges := by
              simp only [storedEdges]
              exact cutEdges }
        · exact {
            fits := fits
            nodes := nodes
            edges := edges
            totalNodes := by
              have all : whole.nodeValuesSeen = whole.nodes.length := kept.nodes.all
              simp only
              rw [counts.1, all, fits.storedNodes]
            totalEdges := by
              have all : whole.edgeValuesSeen = whole.edges.length := kept.edges.all
              simp only
              rw [counts.2, all, fits.storedEdges]
            complete := ⟨kept.nodes.complete, kept.edges.complete⟩ }
        · exact {
            data := kept
            layout := by simp only [storedNodes, storedEdges]
            stats := by
              have strings : cut.stringsSeen = whole.stringsSeen :=
                kept.strings.seen.trans kept.strings.all.symm
              have nodesReached : cut.nodeValuesTruncated = _ := nodesCut
              have edgesReached : cut.edgeValuesTruncated = _ := edgesCut
              simp only [strings, nodesReached, edgesReached] }

/-- What the program stores of a snapshot, its graph indices can count. -/
theorem loadSnapshot_program {document : List UInt8} {s : Loaded}
    (loaded : loadSnapshot .program document = .ok s) :
    s.Shaped ∧ s.layout.storedNodes ≤ kHeapSnapshotMaxNodes ∧ s.layout.storedEdges ≤ kHeapSnapshotMaxEdges := by
  obtain ⟨failure, failed, -⟩ | ⟨cut, whole, loaded', -, shaped, -, kept⟩ :=
    loadSnapshot_kept .program document
  · rw [loaded] at failed
    cases failed
  · rw [loaded] at loaded'
    cases loaded'
    refine ⟨shaped, ?_, ?_⟩
    · rw [kept.layout]
      exact (min_le_left _ _).trans (min_le_left _ _)
    · rw [kept.layout]
      exact (min_le_left _ _).trans (min_le_left _ _)

/-! ## Widths -/

end Reb.Analysis.Snapshot
