import ReqlDriver.Query.Program

namespace ReqlDriver

inductive Operand
  | term
  | text
  | terms
  | texts
deriving DecidableEq, Repr

/-- A function among the arguments, by the number of its variables: after the operands, before
them, or before them with a variable for each. -/
inductive Callback
  | last (arity : Nat)
  | first (arity : Nat)
  | firstOfAll
deriving DecidableEq, Repr

structure Method where
  name : String
  op : Opcode
  operands : List Operand
  callback : Option Callback

namespace Method

def ofTerm : List Method :=
  [⟨"table_in", .table, [.text], none⟩, ⟨"table_create", .tableCreate, [.text], none⟩,
   ⟨"table_drop", .tableDrop, [.text], none⟩, ⟨"table_list", .tableList, [], none⟩,
   ⟨"config", .config, [], none⟩, ⟨"status", .status, [], none⟩, ⟨"wait", .wait, [], none⟩,
   ⟨"rebalance", .rebalance, [], none⟩, ⟨"reconfigure", .reconfigure, [], none⟩,
   ⟨"index_create", .indexCreate, [.text], none⟩,
   ⟨"index_create_fn", .indexCreate, [.text], some (.last 1)⟩,
   ⟨"index_drop", .indexDrop, [.text], none⟩, ⟨"index_list", .indexList, [], none⟩,
   ⟨"index_rename", .indexRename, [.text, .text], none⟩,
   ⟨"index_status", .indexStatus, [.texts], none⟩, ⟨"index_wait", .indexWait, [.texts], none⟩,
   ⟨"insert", .insert, [.term], none⟩, ⟨"update", .update, [.term], none⟩,
   ⟨"update_fn", .update, [], some (.last 1)⟩, ⟨"replace", .replace, [.term], none⟩,
   ⟨"replace_fn", .replace, [], some (.last 1)⟩, ⟨"delete", .delete, [], none⟩,
   ⟨"sync", .sync, [], none⟩, ⟨"get", .get, [.term], none⟩, ⟨"get_all", .getAll, [.terms], none⟩,
   ⟨"between", .between, [.term, .term], none⟩, ⟨"filter", .filter, [], some (.last 1)⟩,
   ⟨"filter_by", .filter, [.term], none⟩, ⟨"inner_join", .innerJoin, [.term], some (.last 2)⟩,
   ⟨"outer_join", .outerJoin, [.term], some (.last 2)⟩, ⟨"eq_join", .eqJoin, [.term, .term], none⟩,
   ⟨"zip", .zip, [], none⟩, ⟨"map", .map, [], some (.last 1)⟩,
   ⟨"concat_map", .concatMap, [], some (.last 1)⟩, ⟨"with_fields", .withFields, [.terms], none⟩,
   ⟨"order_by", .orderBy, [.terms], none⟩, ⟨"skip", .skip, [.term], none⟩,
   ⟨"limit", .limit, [.term], none⟩, ⟨"slice", .slice, [.term, .term], none⟩,
   ⟨"nth", .nth, [.term], none⟩, ⟨"offsets_of", .offsetsOf, [.term], none⟩,
   ⟨"is_empty", .isEmpty, [], none⟩, ⟨"union", .union, [.term], none⟩,
   ⟨"sample", .sample, [.term], none⟩, ⟨"reduce", .reduce, [], some (.last 2)⟩,
   ⟨"fold", .fold, [.term], some (.last 2)⟩, ⟨"count", .count, [], none⟩,
   ⟨"count_of", .count, [.term], none⟩, ⟨"sum", .sum, [], none⟩, ⟨"sum_by", .sum, [.term], none⟩,
   ⟨"avg", .avg, [], none⟩, ⟨"avg_by", .avg, [.term], none⟩, ⟨"min", .min, [], none⟩,
   ⟨"min_by", .min, [.term], none⟩, ⟨"max", .max, [], none⟩, ⟨"max_by", .max, [.term], none⟩,
   ⟨"distinct", .distinct, [], none⟩, ⟨"group", .group, [.term], none⟩,
   ⟨"group_fn", .group, [], some (.last 1)⟩, ⟨"ungroup", .ungroup, [], none⟩,
   ⟨"contains", .contains, [.term], none⟩, ⟨"contains_fn", .contains, [], some (.last 1)⟩,
   ⟨"get_field", .getField, [.text], none⟩, ⟨"field", .getField, [.text], none⟩,
   ⟨"bracket", .bracket, [.term], none⟩, ⟨"pluck", .pluck, [.terms], none⟩,
   ⟨"without", .without, [.terms], none⟩, ⟨"merge", .merge, [.term], none⟩,
   ⟨"merge_fn", .merge, [], some (.last 1)⟩, ⟨"has_fields", .hasFields, [.terms], none⟩,
   ⟨"keys", .keys, [], none⟩, ⟨"values", .values, [], none⟩, ⟨"append", .append, [.term], none⟩,
   ⟨"prepend", .prepend, [.term], none⟩, ⟨"difference", .difference, [.term], none⟩,
   ⟨"set_insert", .setInsert, [.term], none⟩, ⟨"set_union", .setUnion, [.term], none⟩,
   ⟨"set_intersection", .setIntersection, [.term], none⟩,
   ⟨"set_difference", .setDifference, [.term], none⟩,
   ⟨"insert_at", .insertAt, [.term, .term], none⟩, ⟨"splice_at", .spliceAt, [.term, .term], none⟩,
   ⟨"delete_at", .deleteAt, [.term], none⟩, ⟨"change_at", .changeAt, [.term, .term], none⟩,
   ⟨"eq", .eq, [.term], none⟩, ⟨"ne", .ne, [.term], none⟩, ⟨"gt", .gt, [.term], none⟩,
   ⟨"ge", .ge, [.term], none⟩, ⟨"lt", .lt, [.term], none⟩, ⟨"le", .le, [.term], none⟩,
   ⟨"not", .not, [], none⟩, ⟨"and", .and, [.term], none⟩, ⟨"or", .or, [.term], none⟩,
   ⟨"add", .add, [.term], none⟩, ⟨"sub", .sub, [.term], none⟩, ⟨"mul", .mul, [.term], none⟩,
   ⟨"div", .div, [.term], none⟩, ⟨"mod", .mod, [.term], none⟩, ⟨"floor", .floor, [], none⟩,
   ⟨"ceil", .ceil, [], none⟩, ⟨"round", .round, [], none⟩, ⟨"default", .default, [.term], none⟩,
   ⟨"do", .funcall, [], some (.first 1)⟩, ⟨"for_each", .forEach, [], some (.last 1)⟩,
   ⟨"changes", .changes, [], none⟩, ⟨"coerce_to", .coerceTo, [.text], none⟩,
   ⟨"type_of", .typeOf, [], none⟩, ⟨"info", .info, [], none⟩,
   ⟨"to_json_string", .toJsonString, [], none⟩, ⟨"match", .matchText, [.text], none⟩,
   ⟨"upcase", .upcase, [], none⟩, ⟨"downcase", .downcase, [], none⟩, ⟨"split", .split, [], none⟩,
   ⟨"split_on", .split, [.text], none⟩, ⟨"in_timezone", .inTimezone, [.text], none⟩,
   ⟨"during", .during, [.term, .term], none⟩, ⟨"date", .date, [], none⟩,
   ⟨"time_of_day", .timeOfDay, [], none⟩, ⟨"timezone", .timezone, [], none⟩,
   ⟨"year", .year, [], none⟩, ⟨"month", .month, [], none⟩, ⟨"day", .day, [], none⟩,
   ⟨"day_of_week", .dayOfWeek, [], none⟩, ⟨"day_of_year", .dayOfYear, [], none⟩,
   ⟨"hours", .hours, [], none⟩, ⟨"minutes", .minutes, [], none⟩, ⟨"seconds", .seconds, [], none⟩,
   ⟨"to_iso8601", .toIso8601, [], none⟩, ⟨"to_epoch_time", .toEpochTime, [], none⟩]

def ofRoot : List Method :=
  [⟨"db", .db, [.text], none⟩, ⟨"db_create", .dbCreate, [.text], none⟩,
   ⟨"db_drop", .dbDrop, [.text], none⟩, ⟨"db_list", .dbList, [], none⟩,
   ⟨"table", .table, [.text], none⟩, ⟨"table_create", .tableCreate, [.text], none⟩,
   ⟨"table_drop", .tableDrop, [.text], none⟩, ⟨"table_list", .tableList, [], none⟩,
   ⟨"row", .implicitVar, [], none⟩, ⟨"branch", .branch, [.term, .term, .term], none⟩,
   ⟨"any", .or, [.terms], none⟩, ⟨"all", .and, [.terms], none⟩, ⟨"asc", .asc, [.term], none⟩,
   ⟨"desc", .desc, [.term], none⟩, ⟨"do_with", .funcall, [.terms], some .firstOfAll⟩,
   ⟨"now", .now, [], none⟩, ⟨"time", .time, [.term, .term, .term, .term], none⟩,
   ⟨"epoch_time", .epochTime, [.term], none⟩, ⟨"iso8601", .iso8601, [.text], none⟩,
   ⟨"uuid", .uuid, [], none⟩, ⟨"range", .range, [.term, .term], none⟩,
   ⟨"literal", .literal, [.term], none⟩, ⟨"args", .args, [.term], none⟩,
   ⟨"js", .javascript, [.text], none⟩, ⟨"json", .json, [.text], none⟩,
   ⟨"error", .error, [.text], none⟩, ⟨"random", .random, [.term, .term], none⟩,
   ⟨"minval", .minval, [], none⟩, ⟨"maxval", .maxval, [], none⟩]

def ofTerm? (name : String) : Option Method := ofTerm.find? fun m => m.name == name

def ofRoot? (name : String) : Option Method := ofRoot.find? fun m => m.name == name

def call (m : Method) (operands : List Program) : Program := .operation m.op operands

def callWith (m : Method) (callback : Callback) (operands : List Program) (names : List String)
    (body : Program) : Program :=
  match callback with
  | .last arity => .applied m.op operands false arity names body
  | .first arity => .applied m.op operands true arity names body
  | .firstOfAll => .applied m.op operands true operands.length names body

end Method

end ReqlDriver
