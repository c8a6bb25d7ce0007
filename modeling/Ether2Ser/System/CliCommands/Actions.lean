import Ether2Ser.System.CliCommands

open Text ether2ser.cli_parser ether2ser.error ether2ser.event_queue

namespace ether2ser.cli_commands

/-- Neither a line nor half of a new local address. -/
def isPlain : Event → Bool
  | .EV_CLI_LINE _ _ => false
  | .EV_SET_NET_SETTINGS (.NET_IP_LOCAL _) => false
  | .EV_SET_NET_SETTINGS (.NET_IP_MASK _) => false
  | _ => true

/-- The events of a new local address. -/
def addressEvents (ip_addr mask : Ipv4) : List Event :=
  [.EV_SET_NET_SETTINGS (.NET_IP_LOCAL ip_addr), .EV_SET_NET_SETTINGS (.NET_IP_MASK mask)]

/-- What a line can do: nothing, one action that pushes at most a plain event, or
both pushes of a new local address. -/
inductive LineActions : List CliAction → Prop where
  | nothing : LineActions []
  | push (event : Event) (hplain : isPlain event = true) : LineActions [.push event]
  | other (action : CliAction) (hother : ∀ event, action ≠ .push event) : LineActions [action]
  | address (ip_addr mask : Ipv4) : LineActions ((addressEvents ip_addr mask).map .push)

theorem lineActions_onParsed {α : Type} {parsed : Except E2sError α} {dispatch : α → List CliAction}
    (h : ∀ value, LineActions (dispatch value)) : LineActions (onParsed parsed dispatch) := by
  unfold onParsed
  split
  · exact .nothing
  · exact h _

theorem lineActions_withoutArgs {request : List CliAction} (h : LineActions request) (args : List Char) :
    LineActions (withoutArgs request args) := by
  unfold withoutArgs
  split
  · exact .nothing
  · exact h

/-- The first entry of a table that answers, if any does. -/
theorem lineActions_findSome? {α : Type} {table : List α} {answer : α → Option (List CliAction)}
    (h : ∀ entry ∈ table, ∀ actions, answer entry = some actions → LineActions actions) :
    LineActions ((table.findSome? answer).getD []) := by
  cases hfound : table.findSome? answer with
  | none => exact .nothing
  | some actions =>
    obtain ⟨entry, hmem, hanswer⟩ := List.exists_of_findSome?_eq_some hfound
    exact h entry hmem actions hanswer

theorem lineActions_onSubcmd {subcmds : List Subcmd} {handler : Subcmd → Handler}
    (h : ∀ subcmd ∈ subcmds, ∀ args, LineActions (handler subcmd args)) (args : List Char) :
    LineActions (onSubcmd subcmds handler args) := by
  unfold onSubcmd
  split
  · exact .nothing
  · apply lineActions_findSome?
    intro subcmd hmem actions hactions
    obtain ⟨sub_args, -, rfl⟩ := Option.map_eq_some_iff.mp hactions
    exact h subcmd hmem sub_args

theorem lineActions_cat_net_set (args : List Char) : LineActions (cat_net_set args) := by
  apply lineActions_onSubcmd
  intro subcmd hmem args
  simp only [net_subcmds, List.mem_cons, List.not_mem_nil, or_false] at hmem
  rcases hmem with rfl | rfl | rfl | rfl | rfl
  · exact lineActions_onParsed fun (ip_addr, mask) => .address ip_addr mask
  all_goals exact lineActions_onParsed fun value => .push _ rfl

theorem lineActions_cat_net_get (args : List Char) : LineActions (cat_net_get args) := by
  apply lineActions_onSubcmd
  intro subcmd hmem args
  simp only [net_subcmds, List.mem_cons, List.not_mem_nil, or_false] at hmem
  rcases hmem with rfl | rfl | rfl | rfl | rfl
  all_goals exact lineActions_withoutArgs (.push _ rfl) args

theorem lineActions_cat_v24_set (args : List Char) : LineActions (cat_v24_set args) := by
  apply lineActions_onSubcmd
  intro subcmd hmem args
  simp only [v24_subcmds, List.mem_cons, List.not_mem_nil, or_false] at hmem
  rcases hmem with rfl | rfl | rfl
  all_goals exact lineActions_onParsed fun value => .push _ rfl

theorem lineActions_cat_v24_get (args : List Char) : LineActions (cat_v24_get args) := by
  apply lineActions_onSubcmd
  intro subcmd hmem args
  simp only [v24_subcmds, List.mem_cons, List.not_mem_nil, or_false] at hmem
  rcases hmem with rfl | rfl | rfl
  all_goals exact .push _ rfl

theorem lineActions_cat_loglevel_set (args : List Char) : LineActions (cat_loglevel_set args) := by
  unfold cat_loglevel_set
  split
  · exact .nothing
  · split
    · exact .nothing
    · exact .other _ nofun

theorem lineActions_set_handler {category : Category} (hmem : category ∈ categories) (args : List Char) :
    LineActions (category.set_handler args) := by
  simp only [categories, List.mem_cons, List.not_mem_nil, or_false] at hmem
  rcases hmem with rfl | rfl | rfl | rfl
  · exact lineActions_onParsed fun (pin, value) => .other _ nofun
  · exact lineActions_cat_net_set args
  · exact lineActions_cat_v24_set args
  · exact lineActions_cat_loglevel_set args

theorem lineActions_get_handler {category : Category} (hmem : category ∈ categories) (args : List Char) :
    LineActions (category.get_handler args) := by
  simp only [categories, List.mem_cons, List.not_mem_nil, or_false] at hmem
  rcases hmem with rfl | rfl | rfl | rfl
  · exact lineActions_onParsed fun pin => .other _ nofun
  · exact lineActions_cat_net_get args
  · exact lineActions_cat_v24_get args
  · exact .nothing

theorem lineActions_cmd_set (args : List Char) : LineActions (cmd_set args) := by
  unfold cmd_set
  split
  · exact .nothing
  · apply lineActions_findSome?
    intro category hmem actions hactions
    obtain ⟨cat_args, -, rfl⟩ := Option.map_eq_some_iff.mp hactions
    exact lineActions_set_handler hmem cat_args

theorem lineActions_cmd_get (args : List Char) : LineActions (cmd_get args) := by
  unfold cmd_get
  split
  · exact .nothing
  · apply lineActions_findSome?
    intro category hmem actions hactions
    obtain ⟨cat_args, -, rfl⟩ := Option.map_eq_some_iff.mp hactions
    exact lineActions_get_handler hmem cat_args

theorem lineActions_cmd_mem (args : List Char) : LineActions (cmd_mem args) := by
  unfold cmd_mem
  split
  · exact .nothing
  · exact .push _ rfl

theorem lineActions_handle_cli_line (line : List Char) : LineActions (handle_cli_line line) := by
  unfold handle_cli_line
  split
  · exact .nothing
  · rename_i cmd args hparse
    split
    · exact .nothing
    · rename_i command hfind
      have hmem := List.mem_of_find?_eq_some hfind
      simp only [commands, List.mem_cons, List.not_mem_nil, or_false] at hmem
      rcases hmem with rfl | rfl | rfl | rfl | rfl | rfl | rfl | rfl | rfl | rfl
      · exact .nothing
      · exact .push _ rfl
      · exact lineActions_cmd_mem args
      · exact .push _ rfl
      · exact .push _ rfl
      · exact .nothing
      · exact lineActions_cmd_set args
      · exact lineActions_cmd_get args
      · exact .nothing
      · exact .push _ rfl

/-- Accepted arguments are short. -/
theorem length_of_parse_set_ip_args {args : List Char} {ip_addr mask : Ipv4}
    (h : parse_set_ip_args args = .ok (ip_addr, mask)) : args.length < 35 := by
  have hshort : (skipOptional "ip".toList args).length < 32 := by
    unfold parse_set_ip_args at h
    simp only at h
    split at h
    · cases h
    · omega
  unfold skipOptional dropWord? at hshort
  split at hshort
  · rw [Option.getD_some, List.length_drop] at hshort
    have hword : ("ip".toList ++ [' ']).length = 3 := rfl
    omega
  · rw [Option.getD_none] at hshort
    omega

/-- A line `set net ip.local A/P` pushes the address and the mask. -/
theorem handle_cli_line_set_ip_local {args : List Char} {ip_addr mask : Ipv4}
    (h : parse_set_ip_args args = .ok (ip_addr, mask)) :
    handle_cli_line ("set net ip.local ".toList ++ args) = (addressEvents ip_addr mask).map .push := by
  have hlength := length_of_parse_set_ip_args h
  have hparse : cli_parse ("set net ip.local ".toList ++ args) MAX_CMD_BUFFER_LEN MAX_ARG_BUFFER_LEN =
      .ok ("set".toList, "net ip.local ".toList ++ args) := by
    have hfits : ¬ ("net ip.local ".toList ++ args).length ≥ MAX_ARG_BUFFER_LEN := by
      rw [List.length_append]
      have hword : ("net ip.local ".toList).length = 13 := rfl
      unfold MAX_ARG_BUFFER_LEN
      omega
    change (if ("net ip.local ".toList ++ args).length ≥ MAX_ARG_BUFFER_LEN then _ else _) = _
    rw [if_neg hfits]
    rfl
  have hnet : cat_net_set ("ip.local ".toList ++ args) = subcmd_set_ip_local args := rfl
  have hset : cmd_set ("net ip.local ".toList ++ args) = cat_net_set ("ip.local ".toList ++ args) := rfl
  unfold handle_cli_line
  rw [hparse]
  change cmd_set ("net ip.local ".toList ++ args) = _
  rw [hset, hnet, subcmd_set_ip_local, h]
  rfl

end ether2ser.cli_commands
