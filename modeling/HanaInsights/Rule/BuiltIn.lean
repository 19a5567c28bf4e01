import HanaInsights.Rule.Basic
set_option autoImplicit false

namespace HanaInsights.RuleSet

def logMode : Rule where
  id := "SAP_HANA_INSIGHTS_LOG_MODE"
  description := "Log mode should be normal so log backups can be taken"
  queries := [{
    name := "q_log_mode_overwrite"
    sql := "SELECT LAYER_NAME, VALUE FROM M_INIFILE_CONTENTS WHERE FILE_NAME = 'global.ini' AND " ++
      "SECTION = 'persistence' AND KEY = 'log_mode' AND VALUE = 'overwrite'"
    columns := ["LAYER_NAME", "VALUE"] }]
  recommendations := [{
    id := "rec_log_mode_normal"
    description := "Set persistence/log_mode to normal"
    trigger := some (.compare (.comparison .gt) "size(q_log_mode_overwrite:VALUE)" "0") }]

def backup : Rule where
  id := "SAP_HANA_INSIGHTS_BACKUP"
  description := "Recent backups should succeed"
  queries := [{
    name := "q_failed_backups"
    sql := "SELECT BACKUP_ID, ENTRY_TYPE_NAME FROM M_BACKUP_CATALOG WHERE STATE_NAME = 'failed' " ++
      "AND SYS_START_TIME > ADD_DAYS(CURRENT_TIMESTAMP, -7)"
    columns := ["BACKUP_ID", "ENTRY_TYPE_NAME"] }]
  recommendations := [{
    id := "rec_investigate_failed_backups"
    description := "Investigate backups that failed during the last 7 days"
    trigger := some (.compare (.comparison .gte) "size(q_failed_backups:BACKUP_ID)" "1") }]

def persistence : Rule where
  id := "SAP_HANA_INSIGHTS_PERSISTENCE"
  description := "Persistence parameters on large systems"
  queries := [
    { name := "q_data_volume_partitions"
      sql := "SELECT HOST, PARTITION_ID FROM M_DATA_VOLUME_PARTITION_STATISTICS"
      columns := ["HOST", "PARTITION_ID"] },
    { name := "q_savepoint_interval_changed"
      sql := "SELECT LAYER_NAME, VALUE FROM M_INIFILE_CONTENTS WHERE FILE_NAME = 'global.ini' " ++
        "AND SECTION = 'persistence' AND KEY = 'savepoint_interval_s' AND VALUE <> '300'"
      columns := ["LAYER_NAME", "VALUE"] }]
  recommendations := [
    { id := "rec_partition_data_volume"
      description := "Use more than one data volume partition to parallelise I/O"
      trigger :=
        some (.compare (.comparison .eq) "size(q_data_volume_partitions:PARTITION_ID)" "1") },
    { id := "rec_default_savepoint_interval"
      description := "Keep savepoint_interval_s at its default of 300"
      trigger := some (.any [
        .compare (.comparison .gt) "size(q_savepoint_interval_changed:VALUE)" "0",
        .compare (.comparison .gt) "size(q_savepoint_interval_changed:LAYER_NAME)" "0"]) }]

def builtIn : List Rule := [logMode, backup, persistence]

end HanaInsights.RuleSet
